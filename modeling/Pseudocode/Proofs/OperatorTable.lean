/-
# The table of operators

Between two values an operator can be looked up in a table: an entry for two kinds and
an operator has the kind of the result and the function that computes it. The table is
filled once, kind by kind, from the flags of the kind. Its functions share one routine for
arithmetic and one for comparisons, and both are partial: they crash on an operator that
is not theirs, and the quotient of integers crashes on a divisor of zero. So does filling
the table if a rule is given twice or a kind has no rules.

None of this ever happens. The table can be filled (`operatorTable_eq`), it has an entry
exactly where an operator is defined (`result_lookup`), and an evaluation that looks every
operator up gives what `Expr.eval` gives, never a crash (`evalWith_eq`); where it gives an
error, the value beside it is the invalid one.

Key definitions: `Crash`, `Rule`, `operatorTable`, `Expr.evalWith`.
Key theorems: `operatorTable_eq`, `result_lookup`, `negation_eq`, `binaryWith_eq`, `evalWith_eq`.
-/
import Pseudocode.Expr.Eval

namespace Pseudocode

/-- What would end the program without a value and without an error. -/
inductive Crash where
  | notArithmetic (op : TokenKind)
  | notComparison (op : TokenKind)
  /-- Integers have no quotient by zero. -/
  | quotientByZero
  | duplicateRule (left : Kind) (op : TokenKind) (right : Kind)
  | noRules (kind : Kind)
deriving Repr, DecidableEq

/-! ### Partial routines -/

/-- The operations of a type of numbers. -/
structure Numbers (α : Type) where
  add : α → α → α
  sub : α → α → α
  mul : α → α → α
  quotient : α → α → Except Crash α
  lt : α → α → Bool
  le : α → α → Bool
  eq : α → α → Bool

/-- Integers of 64 bits. -/
def integers : Numbers Int64 where
  add := (· + ·)
  sub := (· - ·)
  mul := (· * ·)
  quotient x y := if y = 0 then .error .quotientByZero else .ok (x / y)
  lt x y := x < y
  le x y := x ≤ y
  eq := (· == ·)

def doubles : Numbers Float where
  add := (· + ·)
  sub := (· - ·)
  mul := (· * ·)
  quotient x y := .ok (x / y)
  lt x y := x < y
  le x y := x ≤ y
  eq := (· == ·)

namespace Numbers

variable {α : Type} (ns : Numbers α)

/-- Arithmetic with an operator that has to be one of arithmetic. -/
def arithmetic (op : TokenKind) (x y : α) : Except Crash α :=
  match op with
  | .plus => .ok (ns.add x y)
  | .minus => .ok (ns.sub x y)
  | .times => .ok (ns.mul x y)
  | .divide => ns.quotient x y
  | op => .error (.notArithmetic op)

/-- A comparison with an operator that has to be a comparison. -/
def comparison (op : TokenKind) (x y : α) : Except Crash Bool :=
  match op with
  | .less => .ok (ns.lt x y)
  | .lessEqual => .ok (ns.le x y)
  | .greater => .ok (ns.lt y x)
  | .greaterEqual => .ok (ns.le y x)
  | .equal => .ok (ns.eq x y)
  | .notEqual => .ok !(ns.eq x y)
  | op => .error (.notComparison op)

end Numbers

/-! ### The table -/

/-- A value and perhaps an error; beside an error the value counts for nothing. -/
abbrev Reply (ε : Type) := Value × Option ε

/-- What an operator does between operands of two kinds. -/
structure Rule where
  /-- The kind of the result. -/
  result : Kind
  apply : Value → Value → Except Crash (Reply OperationFault)

/-- A rule for each two kinds and an operator, in the order in which they were added. -/
abbrev RuleTable := List ((Kind × TokenKind × Kind) × Rule)

def arithmeticOperators : List TokenKind := [.plus, .minus, .times, .divide]

def comparisonOperators : List TokenKind :=
  [.less, .lessEqual, .greater, .greaterEqual, .equal, .notEqual]

/-- A rule whose function gives no error. -/
def Rule.total (result : Kind) (f : Value → Value → Except Crash Value) : Rule :=
  ⟨result, fun x y => (f x y).map (·, none)⟩

/-- Arithmetic on integers. Division by zero is an error, found before the quotient is
asked for. -/
def Rule.integerArithmetic (op : TokenKind) : Rule where
  result := .int
  apply x y :=
    if op = .divide ∧ y.toInt = 0 then .ok (.invalid, some .divisionByZero)
    else (integers.arithmetic op x.toInt y.toInt).map (.int ·, none)

/-- The rules between two operands of one kind. Its flags tell which they are. -/
def rulesOf (k : Kind) : Except Crash (List (TokenKind × Rule)) :=
  if k.flags &&& 1 ≠ 0 then
    .ok (arithmeticOperators.map (fun op => (op, .integerArithmetic op)) ++
      comparisonOperators.map fun op =>
        (op, .total .bool fun x y => (integers.comparison op x.toInt y.toInt).map .bool))
  else if k.flags &&& 2 ≠ 0 then
    .ok (arithmeticOperators.map (fun op =>
        (op, .total k fun x y => (doubles.arithmetic op x.toFloat y.toFloat).map .float)) ++
      comparisonOperators.map fun op =>
        (op, .total .bool fun x y => (doubles.comparison op x.toFloat y.toFloat).map .bool))
  else if k.flags &&& 8 ≠ 0 then
    .ok [(.plus, .total k fun x y => .ok (.text (x.toText ++ y.toText)))]
  else if k.flags &&& 4 ≠ 0 then .ok []
  else .error (.noRules k)

namespace RuleTable

/-- Adds a rule that is not there yet. -/
def add (table : RuleTable) (left : Kind) (op : TokenKind) (right : Kind) (r : Rule) :
    Except Crash RuleTable :=
  if (table.lookup (left, op, right)).isSome then .error (.duplicateRule left op right)
  else .ok (table ++ [((left, op, right), r)])

/-- Adds the rules of a kind. -/
def addKind (table : RuleTable) (k : Kind) : Except Crash RuleTable := do
  let rules ← rulesOf k
  rules.foldlM (fun table (op, r) => table.add k op k r) table

end RuleTable

/-- The table with the rules of all kinds. -/
def operatorTable : Except Crash RuleTable := Kind.all.foldlM RuleTable.addKind []

/-! ### Evaluation with the table -/

/-- A prefix operator: its value, and whether it is defined. -/
def negation (op : TokenKind) (x : Value) : Value × Bool :=
  if op = .minus ∧ x.kind = .int then (.int (-x.toInt), true)
  else if op = .minus ∧ x.kind = .float then (.float (-x.toFloat), true)
  else if op = .notOp ∧ x.kind = .bool then (.bool !x.toBool, true)
  else (.invalid, false)

def unaryWith (pos : Pos) (op : TokenKind) (x : Value) : Reply EvalError :=
  match negation op x with
  | (v, true) => (v, none)
  | (_, false) => (.invalid, some (.runtime ⟨.mismatchedType, pos, op, true, x.kind, .invalid⟩))

/-- A binary operator between two values. Where no rule is found for their kinds it is not
defined. -/
def RuleTable.apply (table : RuleTable) (op : TokenKind) (x y : Value) :
    Except Crash (Reply OperationFault) :=
  match table.lookup (x.kind, op, y.kind) with
  | none => .ok (.invalid, some .mismatched)
  | some rule => rule.apply x y

def binaryWith (table : RuleTable) (pos : Pos) (op : TokenKind) (x y : Value) :
    Except Crash (Reply EvalError) := do
  match ← table.apply op x y with
  | (v, none) => .ok (v, none)
  | (_, some fault) =>
    .ok (.invalid, some (.runtime ⟨.ofOperation fault, pos, op, false, x.kind, y.kind⟩))

/-- The value of an expression or the first error in evaluation order, where each binary
operator is looked up. -/
def Expr.evalWith (table : RuleTable) : Expr → Except Crash (Reply EvalError)
  | .lit _ v => .ok (v, none)
  | .unary p op x => do
    match ← x.evalWith table with
    | (_, some e) => .ok (.invalid, some e)
    | (v, none) => .ok (unaryWith p op v)
  | .binary p op x y => do
    match ← x.evalWith table with
    | (_, some e) => .ok (.invalid, some e)
    | (v, none) =>
      match ← y.evalWith table with
      | (_, some e) => .ok (.invalid, some e)
      | (w, none) => binaryWith table p op v w
  | .hole => .ok (.invalid, some (.unsupported "<nil>"))
  | .foreign name => .ok (.invalid, some (.unsupported name))

/-! ### What is in the table -/

/-- The rules of a kind, none if it has no rules. -/
def rules (k : Kind) : List (TokenKind × Rule) := (rulesOf k).toOption.getD []

/-- The rules of a kind as entries of the table. -/
def entries (k : Kind) (rs : List (TokenKind × Rule)) : RuleTable :=
  rs.map fun (op, r) => ((k, op, k), r)

/-- The rules of all kinds as entries of the table. -/
def fullTable : RuleTable := Kind.all.flatMap fun k => entries k (rules k)

/-- **The table can be filled**: every kind has its rules, and none is given twice. -/
theorem operatorTable_eq : operatorTable = .ok fullTable := rfl

theorem rules_unknown (n : Nat) : rules (.unknown n) = [] := by
  simp [rules, rulesOf, Kind.flags, Except.toOption]

theorem lookup_entries (k left : Kind) (op : TokenKind) (right : Kind) :
    ∀ rs : List (TokenKind × Rule), (entries k rs).lookup (left, op, right) =
      if left = k ∧ right = k then rs.lookup op else none
  | [] => by simp [entries]
  | (op', r) :: rs => by
    have ih : List.lookup (left, op, right) (entries k rs) = _ := lookup_entries k left op right rs
    have hcons : entries k ((op', r) :: rs) = ((k, op', k), r) :: entries k rs := rfl
    have hkey : ((left, op, right) == (k, op', k)) = decide ((left = k ∧ right = k) ∧ op = op') := by
      rw [Bool.eq_iff_iff]
      simp [and_comm, and_assoc]
    rw [hcons, List.lookup_cons, hkey, ih]
    by_cases hk : left = k ∧ right = k
    · by_cases hop : op = op'
      · simp [hk, hop]
      · simp [hk, hop, List.lookup_cons, beq_false_of_ne hop]
    · simp [hk]

/-- No rule mixes kinds, and those of a kind are found under it. -/
theorem lookup_fullTable (left : Kind) (op : TokenKind) (right : Kind) :
    fullTable.lookup (left, op, right) = if left = right then (rules left).lookup op else none := by
  simp only [fullTable, Kind.all, List.flatMap_cons, List.flatMap_nil, List.lookup_append, lookup_entries,
    List.lookup_nil]
  cases left <;> cases right <;> simp [rules_unknown]
  simp [rules, rulesOf, Kind.flags, Except.toOption]

/-- **The table has an entry exactly where an operator is defined**, with the kind of its
result. -/
theorem result_lookup (left : Kind) (op : TokenKind) (right : Kind) :
    (fullTable.lookup (left, op, right)).map Rule.result = resultKind? left op right := by
  rw [lookup_fullTable]
  by_cases h : left = right
  · subst h
    rw [if_pos rfl]
    cases left with
    | int => cases op <;> rfl
    | float => cases op <;> rfl
    | text => cases op <;> rfl
    | unknown n => rw [rules_unknown]; rfl
    | _ => rfl
  · rw [if_neg h]
    cases left <;> cases right <;> first | rfl | exact absurd rfl h

/-! ### Looking up gives the same -/

/-- An outcome as a value and perhaps an error. -/
def replyOf {ε : Type} : Except ε Value → Reply ε
  | .ok v => (v, none)
  | .error e => (.invalid, some e)

/-- The quotient of integers is asked for only after the divisor has been tested. -/
theorem integerArithmetic_divide (x y : Int64) :
    (Rule.integerArithmetic .divide).apply (.int x) (.int y) =
      .ok (replyOf (applyInt .divide x y)) := by
  by_cases hy : y = 0 <;>
    simp [Rule.integerArithmetic, Value.toInt, Numbers.arithmetic, integers, applyInt, hy, replyOf, Except.map]

/-- What is found in the table computes the operator, and nothing is found where the
operator is not defined. -/
theorem apply_fullTable (op : TokenKind) (x y : Value) :
    fullTable.apply op x y = .ok (replyOf (applyBinary op x y)) := by
  unfold RuleTable.apply
  rw [lookup_fullTable]
  cases x with
  | int m =>
    cases y with
    | int n =>
      simp only [Value.kind, if_true]
      cases op with
      | divide => exact integerArithmetic_divide m n
      | _ => rfl
    | _ => rfl
  | float a =>
    cases y with
    | float b =>
      simp only [Value.kind, if_true]
      cases op <;> rfl
    | _ => rfl
  | text s =>
    cases y with
    | text t =>
      simp only [Value.kind, if_true]
      cases op <;> rfl
    | _ => rfl
  | bool b =>
    cases y with
    | bool c =>
      simp only [Value.kind, if_true]
      rfl
    | _ => rfl
  | invalid => cases y <;> rfl

/-- A prefix operator gives its value where it is defined, and the invalid one elsewhere. -/
theorem negation_eq (op : TokenKind) (x : Value) :
    negation op x = (applyUnary op x).toOption.elim (.invalid, false) (·, true) := by
  unfold negation
  cases x with
  | int n => by_cases h : op = .minus <;> simp [Value.kind, Value.toInt, applyUnary, h, Except.toOption]
  | float n => by_cases h : op = .minus <;> simp [Value.kind, Value.toFloat, applyUnary, h, Except.toOption]
  | bool b => by_cases h : op = .notOp <;> simp [Value.kind, Value.toBool, applyUnary, h, Except.toOption]
  | _ => simp [Value.kind, applyUnary, Except.toOption]

theorem fault_of_applyUnary {op : TokenKind} {x : Value} {fault : OperationFault}
    (h : applyUnary op x = .error fault) : fault = .mismatched := by
  revert h
  fun_cases applyUnary op x <;> rintro ⟨⟩ <;> rfl

theorem unaryWith_eq (pos : Pos) (op : TokenKind) (x : Value) :
    unaryWith pos op x = replyOf (unaryAt pos op x) := by
  rw [unaryWith, unaryAt, negation_eq]
  cases h : applyUnary op x with
  | ok v => rfl
  | error fault =>
    obtain rfl := fault_of_applyUnary h
    rfl

theorem binaryWith_eq (pos : Pos) (op : TokenKind) (x y : Value) :
    binaryWith fullTable pos op x y = .ok (replyOf (binaryAt pos op x y)) := by
  unfold binaryWith binaryAt
  rw [apply_fullTable]
  cases applyBinary op x y <;> rfl

/-- **Evaluation with the table never crashes** and gives what evaluation gives; the value
beside an error is the invalid one. -/
theorem evalWith_eq (e : Expr) : e.evalWith fullTable = .ok (replyOf e.eval) := by
  induction e with
  | lit | hole | foreign => rfl
  | unary p op x ih =>
    rw [Expr.evalWith, Expr.eval, ih]
    cases x.eval with
    | error => rfl
    | ok v => exact congrArg Except.ok (unaryWith_eq p op v)
  | binary p op x y ihx ihy =>
    rw [Expr.evalWith, Expr.eval, ihx, ihy]
    cases x.eval with
    | error => rfl
    | ok v =>
      cases y.eval with
      | error => rfl
      | ok w => exact binaryWith_eq p op v w

end Pseudocode
