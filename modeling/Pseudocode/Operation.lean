/-
# What operators do

The binary operators are defined between two integers or two doubles: the four
of arithmetic, which give the same kind again, and the six comparisons, which
give a truth value. Texts can be joined with plus. Nothing else is defined, and
no operator mixes kinds. Prefix minus is defined on numbers and NOT on truth
values.

Integers are 64 bits wide and wrap; their quotient goes toward zero, and by zero
there is none. Doubles follow the usual floating-point rules.

Key definitions: `resultKind?`, `applyBinary`, `applyUnary`.
-/
import Pseudocode.Token

namespace Pseudocode

/-- Why an operator gives no value. -/
inductive OperationFault where
  /-- The operator is not defined on operands of these kinds. -/
  | mismatched
  | divisionByZero
deriving Repr, DecidableEq, Inhabited

/-- An operator of arithmetic. -/
def isArithmetic : TokenKind → Bool
  | .plus | .minus | .times | .divide => true
  | _ => false

/-- A comparison. -/
def isComparison : TokenKind → Bool
  | .less | .lessEqual | .greater | .greaterEqual | .equal | .notEqual => true
  | _ => false

/-- The kind an operator gives between operands of two kinds, if it is defined. -/
def resultKind? (left : Kind) (op : TokenKind) (right : Kind) : Option Kind :=
  match left, right with
  | .int, .int => if isArithmetic op then some .int else if isComparison op then some .bool else none
  | .float, .float =>
    if isArithmetic op then some .float else if isComparison op then some .bool else none
  | .text, .text => if op = .plus then some .text else none
  | _, _ => none

/-- An operator between integers. -/
def applyInt (op : TokenKind) (x y : Int64) : Except OperationFault Value :=
  match op with
  | .plus => .ok (.int (x + y))
  | .minus => .ok (.int (x - y))
  | .times => .ok (.int (x * y))
  | .divide => if y = 0 then .error .divisionByZero else .ok (.int (x / y))
  | .less => .ok (.bool (x < y))
  | .lessEqual => .ok (.bool (x ≤ y))
  | .greater => .ok (.bool (y < x))
  | .greaterEqual => .ok (.bool (y ≤ x))
  | .equal => .ok (.bool (x == y))
  | .notEqual => .ok (.bool (x != y))
  | _ => .error .mismatched

/-- An operator between doubles. -/
def applyFloat (op : TokenKind) (x y : Float) : Except OperationFault Value :=
  match op with
  | .plus => .ok (.float (x + y))
  | .minus => .ok (.float (x - y))
  | .times => .ok (.float (x * y))
  | .divide => .ok (.float (x / y))
  | .less => .ok (.bool (x < y))
  | .lessEqual => .ok (.bool (x ≤ y))
  | .greater => .ok (.bool (y < x))
  | .greaterEqual => .ok (.bool (y ≤ x))
  | .equal => .ok (.bool (x == y))
  | .notEqual => .ok (.bool (x != y))
  | _ => .error .mismatched

/-- A binary operator between two values. -/
def applyBinary (op : TokenKind) : Value → Value → Except OperationFault Value
  | .int x, .int y => applyInt op x y
  | .float x, .float y => applyFloat op x y
  | .text s, .text t => if op = .plus then .ok (.text (s ++ t)) else .error .mismatched
  | _, _ => .error .mismatched

/-- A prefix operator on a value. -/
def applyUnary (op : TokenKind) : Value → Except OperationFault Value
  | .int x => if op = .minus then .ok (.int (-x)) else .error .mismatched
  | .float x => if op = .minus then .ok (.float (-x)) else .error .mismatched
  | .bool b => if op = .notOp then .ok (.bool !b) else .error .mismatched
  | _ => .error .mismatched

end Pseudocode
