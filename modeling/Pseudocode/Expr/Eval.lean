/-
# Evaluation

Operands are evaluated from left to right and all of them always; the first
operator that gives no value ends the evaluation with an error that names the
operator, its place and the kinds of its operands. A tree that lacks an operand
or holds a foreign node cannot be evaluated at all; no tree that was parsed is
such a tree.

Key definitions: `RuntimeFault`, `RuntimeError`, `EvalError`, `Expr.eval`.
-/
import Pseudocode.Expr
import Pseudocode.Operation

namespace Pseudocode

/-- What is wrong with an operation. Codes beyond the two faults can be named
but never arise. -/
inductive RuntimeFault where
  | mismatchedType
  | divisionByZero
  /-- The fault with code `2 + offset`. -/
  | unknown (offset : Nat)
deriving Repr, DecidableEq, Inhabited

namespace RuntimeFault

/-- The fault with a numeric code. -/
def ofCode : Nat → RuntimeFault
  | 0 => mismatchedType
  | 1 => divisionByZero
  | n + 2 => unknown n

/-- The name of the fault. -/
def name : RuntimeFault → String
  | mismatchedType => "MismatchedType"
  | divisionByZero => "DivisionByZero"
  | unknown n => "ErrorKind(" ++ toString (n + 2) ++ ")"

/-- The fault of an operation that gives no value. -/
def ofOperation : OperationFault → RuntimeFault
  | .mismatched => mismatchedType
  | .divisionByZero => divisionByZero

end RuntimeFault

/-- An operation that gave no value. -/
structure RuntimeError where
  fault : RuntimeFault
  /-- The place of the operator. -/
  pos : Pos
  op : TokenKind
  /-- Whether the operator stands before its only operand, whose kind is then
  `left`. -/
  unary : Bool
  left : Kind
  right : Kind := .invalid
deriving Repr, DecidableEq, Inhabited

namespace RuntimeError

/-- The message without the place. -/
def detail (e : RuntimeError) : String :=
  match e.fault with
  | .divisionByZero => "division by zero"
  | .mismatchedType =>
    "mismatched type: cannot apply " ++ e.op.spelling ++ " to " ++ e.left.name
      ++ if e.unary then "" else " and " ++ e.right.name
  | .unknown n => (RuntimeFault.unknown n).name

/-- The whole message. -/
def message (e : RuntimeError) : String := e.pos.describe ++ ": " ++ e.detail

/-- Whether it counts as a division by zero. -/
def isDivisionByZero (e : RuntimeError) : Bool := e.fault = .divisionByZero

/-- Whether it counts as a mismatch of kinds, as all other faults do. -/
def isMismatch (e : RuntimeError) : Bool := e.fault ≠ .divisionByZero

end RuntimeError

/-- Why an expression has no value. -/
inductive EvalError where
  /-- An operation gave no value. -/
  | runtime (e : RuntimeError)
  /-- A node that is no expression of this library. -/
  | unsupported (name : String)
deriving Repr, Inhabited

/-- The whole message. -/
def EvalError.message : EvalError → String
  | runtime e => e.message
  | unsupported name => "interp: cannot evaluate " ++ name

/-- A prefix operator at its place, on a value. -/
def unaryAt (pos : Pos) (op : TokenKind) (x : Value) : Except EvalError Value :=
  match applyUnary op x with
  | .ok v => .ok v
  | .error fault => .error (.runtime ⟨.ofOperation fault, pos, op, true, x.kind, .invalid⟩)

/-- A binary operator at its place, between values. -/
def binaryAt (pos : Pos) (op : TokenKind) (x y : Value) : Except EvalError Value :=
  match applyBinary op x y with
  | .ok v => .ok v
  | .error fault => .error (.runtime ⟨.ofOperation fault, pos, op, false, x.kind, y.kind⟩)

namespace Expr

/-- The value of an expression, or the first error in evaluation order. -/
def eval : Expr → Except EvalError Value
  | lit _ v => .ok v
  | unary p op x => do
    let x ← x.eval
    unaryAt p op x
  | binary p op x y => do
    let x ← x.eval
    let y ← y.eval
    binaryAt p op x y
  | hole => .error (.unsupported "<nil>")
  | foreign name => .error (.unsupported name)

end Expr

end Pseudocode
