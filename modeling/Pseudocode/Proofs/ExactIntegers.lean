/-
# Integers are exact up to wrapping

A tree of integer literals, the operators of arithmetic and minus signs has an exact value
(`Expr.exactValue?`), reckoned with integers of any size. Only a quotient looks at the 64 bits of
its operands (`wrap`), so that all other overflow is put off to the root.

The evaluation wraps at every node. Wrapping keeps sums, differences, products and signs,
and a quotient is taken of what is wrapped already, so it gives the exact value, wrapped
once (`eval_wraps_exact_value`). Where a divisor wraps to zero there is no exact value, and
the evaluation ends at the first such division, counted as the operands come before their
operator (`Expr.postOrder`).

Key definitions: `wrap`, `Expr.exactValue?`, `Expr.postOrder`, `Expr.dividesByZero`.
Key theorems: `applyInt_ofInt`, `Expr.IsIntegral.reckoned`, `eval_wraps_exact_value`.
-/
import Pseudocode.Expr.Eval
import Mathlib.Data.Int.ModEq

namespace Pseudocode

/-! ### Exact values -/

/-- What 64 bits hold of an integer: the number from `-2 ^ 63` up to below `2 ^ 63` that
differs from it by a multiple of `2 ^ 64`. -/
def wrap (n : Int) : Int := n.bmod (2 ^ 64)

/-- An operator of arithmetic between integers. The quotient is that of the wrapped
operands, cut off toward zero, and there is none if the divisor wraps to zero. -/
def exactOperation (op : TokenKind) (a b : Int) : Option Int :=
  match op with
  | .plus => some (a + b)
  | .minus => some (a - b)
  | .times => some (a * b)
  | .divide => if wrap b = 0 then none else some ((wrap a).tdiv (wrap b))
  | _ => none

namespace Expr

/-- The tree has only integer literals, operators of arithmetic and minus signs. -/
def IsIntegral : Expr → Prop
  | lit _ (.int _) => True
  | unary _ op x => op = .minus ∧ x.IsIntegral
  | binary _ op x y => isArithmetic op = true ∧ x.IsIntegral ∧ y.IsIntegral
  | _ => False

/-- The exact value of a tree, unless a divisor wraps to zero. -/
def exactValue? : Expr → Option Int
  | lit _ (.int n) => some n.toInt
  | unary _ .minus x => x.exactValue?.map (- ·)
  | binary _ op x y => x.exactValue?.bind fun a => y.exactValue?.bind (exactOperation op a)
  | _ => none

/-- The nodes of a tree, each after its operands, and the left one of these first. -/
def postOrder : Expr → List Expr
  | unary p op x => x.postOrder ++ [unary p op x]
  | binary p op x y => x.postOrder ++ y.postOrder ++ [binary p op x y]
  | leaf => [leaf]

/-- Whether a node is a division whose divisor wraps to zero. -/
def dividesByZero : Expr → Bool
  | binary _ .divide _ y => y.exactValue?.map wrap == some 0
  | _ => false

end Expr

/-- The error of a division by zero between integers. -/
def zeroDivision (pos : Pos) : EvalError := .runtime ⟨.divisionByZero, pos, .divide, false, .int, .int⟩

/-! ### One operator -/

theorem toInt_ofInt_eq_wrap (n : Int) : (Int64.ofInt n).toInt = wrap n := Int64.toInt_ofInt

theorem wrap_modEq (n : Int) : wrap n ≡ n [ZMOD 2 ^ 64] := Int.bmod_emod

theorem ofInt_eq_zero_iff (n : Int) : Int64.ofInt n = 0 ↔ wrap n = 0 := by
  rw [← Int64.toInt_inj, toInt_ofInt_eq_wrap, Int64.toInt_zero]

/-- A quotient of wrapped operands is wrapped once more, as the least integer divided by minus
one does not fit. -/
theorem ofInt_tdiv_wrap (a b : Int) :
    Int64.ofInt ((wrap a).tdiv (wrap b)) = Int64.ofInt a / Int64.ofInt b := by
  rw [← Int64.toInt_inj, Int64.toInt_div, toInt_ofInt_eq_wrap, toInt_ofInt_eq_wrap, toInt_ofInt_eq_wrap]
  rfl

/-- **Every operator of arithmetic can be taken before wrapping.** -/
theorem applyInt_ofInt {op : TokenKind} (hop : isArithmetic op = true) (a b : Int) :
    applyInt op (.ofInt a) (.ofInt b) =
      match exactOperation op a b with
      | some r => .ok (.int (.ofInt r))
      | none => .error .divisionByZero := by
  cases op with
  | plus => simp only [applyInt, exactOperation, Int64.ofInt_add]
  | minus => simp only [applyInt, exactOperation, Int64.ofInt_sub]
  | times => simp only [applyInt, exactOperation, Int64.ofInt_mul]
  | divide =>
    simp only [applyInt, exactOperation, ofInt_eq_zero_iff]
    by_cases hb : wrap b = 0
    · simp only [hb, if_true]
    · simp only [hb, if_false, ofInt_tdiv_wrap]
  | _ => simp [isArithmetic] at hop

/-- An operator of arithmetic has no exact value only where it divides by zero. -/
theorem exactOperation_eq_none_iff {op : TokenKind} (hop : isArithmetic op = true) (a b : Int) :
    exactOperation op a b = none ↔ op = .divide ∧ wrap b = 0 := by
  cases op with
  | plus | minus | times => simp [exactOperation]
  | divide => simp [exactOperation]
  | _ => simp [isArithmetic] at hop

/-! ### Whole trees -/

/-- The evaluation of a tree gives the exact value, wrapped, or ends at the first division
by zero. -/
def Reckoned (e : Expr) : Prop :=
  match e.postOrder.find? Expr.dividesByZero with
  | none => ∃ r, e.exactValue? = some r ∧ e.eval = .ok (.int (.ofInt r))
  | some n => e.exactValue? = none ∧ e.eval = .error (zeroDivision n.pos)

namespace Reckoned

/-- What is reckoned of an operand decides which case the whole tree is in. -/
theorem cases {e : Expr} (h : Reckoned e) :
    (e.postOrder.find? Expr.dividesByZero = none ∧
      ∃ r, e.exactValue? = some r ∧ e.eval = .ok (.int (.ofInt r))) ∨
    ∃ n, e.postOrder.find? Expr.dividesByZero = some n ∧ e.exactValue? = none ∧
      e.eval = .error (zeroDivision n.pos) := by
  unfold Reckoned at h
  cases hn : e.postOrder.find? Expr.dividesByZero with
  | none => exact .inl ⟨rfl, by simpa only [hn] using h⟩
  | some n => exact .inr ⟨n, rfl, by simpa only [hn] using h⟩

theorem negated {x : Expr} (h : Reckoned x) (p : Pos) : Reckoned (.unary p .minus x) := by
  obtain ⟨hnone, a, hexact, heval⟩ | ⟨n, hsome, hexact, heval⟩ := h.cases
  · simp [Reckoned, Expr.postOrder, Expr.dividesByZero, hnone, Expr.exactValue?, hexact, Expr.eval, heval,
      unaryAt, applyUnary, Int64.ofInt_neg, bind, Except.bind]
  · simp [Reckoned, Expr.postOrder, hsome, Expr.exactValue?, hexact, Expr.eval, heval, bind, Except.bind]

theorem dividesByZero_eq {op : TokenKind} (hop : isArithmetic op = true) {x y : Expr} {a b : Int}
    (hb : y.exactValue? = some b) (p : Pos) :
    (Expr.binary p op x y).dividesByZero = (exactOperation op a b).isNone := by
  rw [Bool.eq_iff_iff, Option.isNone_iff_eq_none, exactOperation_eq_none_iff hop]
  cases op <;> simp [Expr.dividesByZero, hb]

theorem combined {op : TokenKind} (hop : isArithmetic op = true) {x y : Expr} (hx : Reckoned x)
    (hy : Reckoned y) (p : Pos) : Reckoned (.binary p op x y) := by
  obtain ⟨hnone, a, ha, hevalx⟩ | ⟨n, hsome, ha, hevalx⟩ := hx.cases
  · obtain ⟨hnone', b, hb, hevaly⟩ | ⟨n, hsome, hb, hevaly⟩ := hy.cases
    · have hzero := dividesByZero_eq hop (x := x) (a := a) hb p
      have happly : (Expr.binary p op x y).eval = binaryAt p op (.int (.ofInt a)) (.int (.ofInt b)) := by
        rw [Expr.eval, hevalx, hevaly]
        rfl
      simp only [Reckoned, Expr.postOrder, List.find?_append, hnone, hnone', Option.none_or,
        List.find?_singleton, hzero, Expr.exactValue?, ha, hb, Option.bind_some, happly, binaryAt, applyBinary,
        applyInt_ofInt hop]
      cases hr : exactOperation op a b with
      | some r => exact ⟨r, rfl, rfl⟩
      | none =>
        obtain ⟨rfl, -⟩ := (exactOperation_eq_none_iff hop a b).mp hr
        exact ⟨rfl, rfl⟩
    · simp [Reckoned, Expr.postOrder, hnone, hsome, Expr.exactValue?, ha, hb, Expr.eval, hevalx, hevaly, bind,
        Except.bind]
  · simp [Reckoned, Expr.postOrder, hsome, Expr.exactValue?, ha, Expr.eval, hevalx, bind, Except.bind]

end Reckoned

theorem Expr.IsIntegral.reckoned : ∀ {e : Expr}, e.IsIntegral → Reckoned e
  | .lit _ (.int n), _ => by simp [Reckoned, postOrder, dividesByZero, exactValue?, eval, Int64.ofInt_toInt]
  | .unary p _ _, ⟨rfl, hx⟩ => hx.reckoned.negated p
  | .binary p _ _ _, ⟨hop, hx, hy⟩ => hx.reckoned.combined hop hy.reckoned p

/-- **The evaluation of integers gives the exact value, wrapped once.** If no divisor wraps to
zero there is an exact value, and the result is what 64 bits hold of it; so overflow on the
way never changes the result modulo `2 ^ 64`. Else the evaluation fails at the first
division by zero. The least integer divided by minus one is itself again. -/
theorem eval_wraps_exact_value {e : Expr} (he : e.IsIntegral) :
    ((∀ n ∈ e.postOrder, n.dividesByZero = false) →
      ∃ r v, e.exactValue? = some r ∧ e.eval = .ok (.int v) ∧ v.toInt = wrap r ∧ v.toInt ≡ r [ZMOD 2 ^ 64]) ∧
    (∀ before n later, e.postOrder = before ++ n :: later →
      (∀ m ∈ before, m.dividesByZero = false) → n.dividesByZero = true →
        e.eval = .error (zeroDivision n.pos)) ∧
    ∀ p y, e.eval = .ok (.int Int64.minValue) → y.eval = .ok (.int (-1)) →
      (Expr.binary p .divide e y).eval = .ok (.int Int64.minValue) := by
  have hreckoned := he.reckoned
  refine ⟨fun hnone => ?_, fun before n later hsplit hbefore hn => ?_, fun p y hx hy => ?_⟩
  · obtain ⟨-, r, hexact, heval⟩ | ⟨n, hsome, -⟩ := hreckoned.cases
    · refine ⟨r, _, hexact, heval, toInt_ofInt_eq_wrap r, ?_⟩
      rw [toInt_ofInt_eq_wrap]
      exact wrap_modEq r
    · have hzero := List.find?_some hsome
      simp [hnone n (List.mem_of_find?_eq_some hsome)] at hzero
  · have hfirst : e.postOrder.find? Expr.dividesByZero = some n := by
      rw [List.find?_eq_some_iff_append]
      exact ⟨hn, before, later, hsplit, by simpa using hbefore⟩
    rw [Reckoned, hfirst] at hreckoned
    exact hreckoned.2
  · have hmin : Int64.minValue / -1 = Int64.minValue := by decide
    rw [Expr.eval, hx, hy]
    change binaryAt p .divide (.int Int64.minValue) (.int (-1)) = _
    simp [binaryAt, applyBinary, applyInt, hmin]

/-- The tree of `4294967296 * 4294967296`, which is `2 ^ 64`. -/
def wideProduct : Expr :=
  .binary ⟨"", 1, 13⟩ .times (.lit ⟨"", 1, 2⟩ (.int 4294967296)) (.lit ⟨"", 1, 15⟩ (.int 4294967296))

/-- The tree of `(4294967296 * 4294967296 + 7) / -2`. -/
def wideQuotient : Expr :=
  .binary ⟨"", 1, 31⟩ .divide (.binary ⟨"", 1, 26⟩ .plus wideProduct (.lit ⟨"", 1, 28⟩ (.int 7)))
    (.unary ⟨"", 1, 33⟩ .minus (.lit ⟨"", 1, 34⟩ (.int 2)))

/-- Seven is all that is left of the dividend; and a divisor of `2 ^ 64` is one of zero. -/
theorem wideQuotient_wraps : wideQuotient.IsIntegral ∧ (∀ n ∈ wideQuotient.postOrder, n.dividesByZero = false) ∧
    wideQuotient.exactValue? = some (-3) ∧ (∃ v, wideQuotient.eval = .ok (.int v) ∧ v.toInt = -3) ∧
    (Expr.binary ⟨"", 1, 40⟩ .divide wideQuotient wideProduct).eval = .error (zeroDivision ⟨"", 1, 40⟩) := by
  have hquotient : wideQuotient.IsIntegral :=
    ⟨rfl, ⟨rfl, ⟨rfl, trivial, trivial⟩, trivial⟩, rfl, trivial⟩
  have hnonzero : ∀ n ∈ wideQuotient.postOrder, n.dividesByZero = false := by decide
  have hexact : wideQuotient.exactValue? = some (-3) := by decide
  obtain ⟨r, v, hr, hv, hwrap, -⟩ := (eval_wraps_exact_value hquotient).1 hnonzero
  obtain rfl : -3 = r := Option.some.inj (hexact.symm.trans hr)
  have hwhole : (Expr.binary ⟨"", 1, 40⟩ .divide wideQuotient wideProduct).IsIntegral :=
    ⟨rfl, hquotient, rfl, trivial, trivial⟩
  refine ⟨hquotient, hnonzero, hexact, ⟨v, hv, hwrap⟩, ?_⟩
  exact (eval_wraps_exact_value hwhole).2.1 (wideQuotient.postOrder ++ wideProduct.postOrder) _ [] rfl (by decide)
    (by decide)

end Pseudocode
