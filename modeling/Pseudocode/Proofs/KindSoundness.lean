/-
# The kind of a tree foretells its value

A tree has a kind that can be read off without evaluating it (`Expr.kind?`): that of its
literals, through the operators that are defined on such kinds. A tree with a kind
evaluates to a value of that kind, or divides an integer by zero on the way; it never
meets operands of the wrong kinds. A tree without a kind never has a value. It need not be
a mismatch that is reported, as a division by zero may come first.

Each operator does what its kinds say (`applyUnary_foretold`, `applyBinary_foretold`), and
an operand that has no value ends the evaluation (`Foretold.bind`); the rest is induction
over the tree.

Key definitions: `unaryKind?`, `Expr.kind?`, `Expr.Complete`, `Foretold`.
Key theorems: `applyBinary_foretold`, `Expr.eval_foretold`, `eval_is_sound`.
-/
import Pseudocode.Proofs.OperatorTable

namespace Pseudocode

/-- The kind a prefix operator gives on an operand of a kind, if it is defined. -/
def unaryKind? (op : TokenKind) (k : Kind) : Option Kind :=
  if op = .minus ∧ (k = .int ∨ k = .float) then some k
  else if op = .notOp ∧ k = .bool then some .bool
  else none

namespace Expr

/-- The kind of a tree, if it has one. -/
def kind? : Expr → Option Kind
  | lit _ v => some v.kind
  | unary _ op x => x.kind?.bind (unaryKind? op)
  | binary _ op x y => x.kind?.bind fun k => y.kind?.bind (resultKind? k op)
  | hole => none
  | foreign _ => none

/-- Nothing is missing from the tree, and no node is foreign. -/
def Complete : Expr → Prop
  | lit _ _ => True
  | unary _ _ x => x.Complete
  | binary _ _ x y => x.Complete ∧ y.Complete
  | hole => False
  | foreign _ => False

end Expr

/-- What the kind of a tree says of its outcome: a value of that kind or a division by
zero, and if there is no kind, some operation that gave no value. -/
def Foretold : Option Kind → Except EvalError Value → Prop
  | some k, r => (∃ v, r = .ok v ∧ v.kind = k) ∨
      ∃ e, r = .error (.runtime e) ∧ e.fault = .divisionByZero
  | none, r => ∃ e, r = .error (.runtime e)

/-! ### One operator -/

theorem applyUnary_foretold (op : TokenKind) (x : Value) :
    match unaryKind? op x.kind with
    | some k => ∃ v, applyUnary op x = .ok v ∧ v.kind = k
    | none => applyUnary op x = .error .mismatched := by
  cases x with
  | int n => by_cases h : op = .minus <;> simp [unaryKind?, Value.kind, applyUnary, h]
  | float a => by_cases h : op = .minus <;> simp [unaryKind?, Value.kind, applyUnary, h]
  | bool b => by_cases h : op = .notOp <;> simp [unaryKind?, Value.kind, applyUnary, h]
  | _ => simp [unaryKind?, Value.kind, applyUnary]

/-- An operator that is defined gives the kind it is said to give, unless it divides by
zero. -/
theorem applyBinary_foretold (op : TokenKind) (x y : Value) :
    match resultKind? x.kind op y.kind with
    | some k => (∃ v, applyBinary op x y = .ok v ∧ v.kind = k) ∨
        applyBinary op x y = .error .divisionByZero
    | none => applyBinary op x y = .error .mismatched := by
  cases x with
  | int m =>
    cases y with
    | int n =>
      cases op with
      | divide => by_cases h : n = 0 <;> simp [resultKind?, Value.kind, applyBinary, applyInt, isArithmetic, h]
      | _ => simp [resultKind?, Value.kind, applyBinary, applyInt, isArithmetic, isComparison]
    | _ => rfl
  | float a =>
    cases y with
    | float b =>
      cases op <;> simp [resultKind?, Value.kind, applyBinary, applyFloat, isArithmetic, isComparison]
    | _ => rfl
  | text s =>
    cases y with
    | text t => by_cases h : op = .plus <;> simp [resultKind?, Value.kind, applyBinary, h]
    | _ => rfl
  | _ => rfl

theorem unaryAt_foretold (pos : Pos) (op : TokenKind) (x : Value) :
    Foretold (unaryKind? op x.kind) (unaryAt pos op x) := by
  have h := applyUnary_foretold op x
  unfold unaryAt
  cases hk : unaryKind? op x.kind with
  | some k =>
    rw [hk] at h
    obtain ⟨v, hv, hkind⟩ := h
    exact .inl ⟨v, by rw [hv], hkind⟩
  | none =>
    rw [hk] at h
    exact ⟨_, by rw [h]⟩

theorem binaryAt_foretold (pos : Pos) (op : TokenKind) (x y : Value) :
    Foretold (resultKind? x.kind op y.kind) (binaryAt pos op x y) := by
  have h := applyBinary_foretold op x y
  unfold binaryAt
  cases hk : resultKind? x.kind op y.kind with
  | some k =>
    rw [hk] at h
    obtain ⟨v, hv, hkind⟩ | hzero := h
    · exact .inl ⟨v, by rw [hv], hkind⟩
    · exact .inr ⟨_, by rw [hzero], rfl⟩
  | none =>
    rw [hk] at h
    exact ⟨_, by rw [h]⟩

/-! ### Whole trees -/

/-- An error of an operand is the error of the whole, and foretold whatever the kind of the
whole: a division by zero can come before a mismatch. -/
theorem Foretold.bind {k? : Option Kind} {r : Except EvalError Value} (h : Foretold k? r)
    {f : Kind → Option Kind} {g : Value → Except EvalError Value}
    (hg : ∀ v, Foretold (f v.kind) (g v)) : Foretold (k?.bind f) (r >>= g) := by
  cases k? with
  | none =>
    obtain ⟨e, rfl⟩ := h
    exact ⟨e, rfl⟩
  | some k =>
    obtain ⟨v, rfl, rfl⟩ | ⟨e, rfl, he⟩ := h
    · exact hg v
    · rw [Option.bind_some]
      cases f k with
      | none => exact ⟨e, rfl⟩
      | some k' => exact .inr ⟨e, rfl, he⟩

/-- **The kind of a tree foretells its outcome.** -/
theorem Expr.eval_foretold {e : Expr} (he : e.Complete) : Foretold e.kind? e.eval := by
  induction e with
  | lit p v => exact .inl ⟨v, rfl, rfl⟩
  | unary p op x ih => exact (ih he).bind (unaryAt_foretold p op)
  | binary p op x y ihx ihy =>
    refine (ihx he.1).bind fun v => (ihy he.2).bind fun w => ?_
    exact binaryAt_foretold p op v w
  | hole => exact he.elim
  | foreign => exact he.elim

/-- **Evaluation is sound.** A complete tree with a kind has a value of that kind or
divides by zero, and one without a kind has no value; in either case an operation is to
blame. The table of operators can be filled and has the kinds that foretell this. With its
partial routines the evaluation never crashes and has the same outcome, where the value
beside an error is the invalid one. -/
theorem eval_is_sound {e : Expr} (he : e.Complete) :
    (∀ k, e.kind? = some k → (∃ v, e.eval = .ok v ∧ v.kind = k) ∨
      ∃ err, e.eval = .error (.runtime err) ∧ err.fault = .divisionByZero) ∧
    (e.kind? = none → ∃ err, e.eval = .error (.runtime err)) ∧
    ∃ table, operatorTable = .ok table ∧
      (∀ left op right, (table.lookup (left, op, right)).map Rule.result = resultKind? left op right) ∧
      ∃ v err?, e.evalWith table = .ok (v, err?) ∧
        ((err? = none ∧ e.eval = .ok v) ∨ ∃ err, err? = some err ∧ v = .invalid ∧ e.eval = .error err) := by
  have h := Expr.eval_foretold he
  refine ⟨fun k hk => by rwa [hk] at h, fun hk => by rwa [hk] at h, fullTable, operatorTable_eq,
    result_lookup, ?_⟩
  rw [evalWith_eq]
  cases e.eval with
  | ok v => exact ⟨v, none, rfl, .inl ⟨rfl, rfl⟩⟩
  | error err => exact ⟨.invalid, some err, rfl, .inr ⟨err, rfl, rfl, rfl⟩⟩

/-- The tree of `1 / 0 + 'a'`. -/
def quotientTree : Expr :=
  .binary ⟨"", 1, 7⟩ .plus (.binary ⟨"", 1, 3⟩ .divide (.lit ⟨"", 1, 1⟩ (.int 1)) (.lit ⟨"", 1, 5⟩ (.int 0)))
    (.lit ⟨"", 1, 9⟩ (.text "a"))

/-- It has no kind, and the division by zero comes before the mismatch. -/
theorem quotientTree_is_sound : quotientTree.Complete ∧ quotientTree.kind? = none ∧
    ∃ err, quotientTree.eval = .error (.runtime err) ∧ err.fault = .divisionByZero ∧
      ∃ table, operatorTable = .ok table ∧
        quotientTree.evalWith table = .ok (.invalid, some (.runtime err)) := by
  have hc : quotientTree.Complete := ⟨⟨trivial, trivial⟩, trivial⟩
  have hk : quotientTree.kind? = none := by decide
  obtain ⟨-, hnone, table, htable, -, v, err?, hwith, hreply⟩ := eval_is_sound hc
  obtain ⟨err, herr⟩ := hnone hk
  have hfault : err.fault = .divisionByZero := by
    obtain rfl : _ = err := by simpa using Except.error.inj herr
    rfl
  obtain ⟨-, hok⟩ | ⟨err', rfl, rfl, herr'⟩ := hreply
  · simp [herr] at hok
  · obtain rfl : EvalError.runtime err = err' := by rw [herr] at herr'; exact Except.error.inj herr'
    exact ⟨hc, hk, err, herr, hfault, table, htable, hwith⟩

end Pseudocode
