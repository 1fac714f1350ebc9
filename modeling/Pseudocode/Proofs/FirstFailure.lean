/-
# The first operator that fails

An operator is to blame for an error if its operands have values and on these it gives
none: it is not defined on values of their kinds, or it divides an integer by zero. The
error then says where the operator stands, which it is, whether it has one operand or two,
and of what kinds their values are (`Blames`).

Several operators of a tree may be to blame. The evaluation ends with the error of the
first one, counted as the operands come before their operator, and everything that comes
before it has a value (`eval_reports_first_failure`). One operator fails by itself or gives a
value (`unaryAt_cases`, `binaryAt_cases`), and an operand that fails ends the evaluation of
all operators above it; so what is first in an operand is first in the whole tree
(`FirstFailure.unary`, `FirstFailure.binary`).

Key definitions: `Expr.IsZeroQuotient`, `Blames`, `FirstFailure`.
Key theorems: `Blames.eval_eq`, `Expr.Complete.firstFailure`, `eval_reports_first_failure`.
-/
import Pseudocode.Failure
import Pseudocode.Proofs.ExactIntegers
import Pseudocode.Proofs.KindSoundness

namespace Pseudocode

/-- The node divides an integer by the integer zero. -/
def Expr.IsZeroQuotient (n : Expr) : Prop :=
  ∃ p x y m, n = .binary p .divide x y ∧ x.eval = .ok (.int m) ∧ y.eval = .ok (.int 0)

/-- The node is to blame for the error. -/
inductive Blames : Expr → RuntimeError → Prop where
  /-- A prefix operator that is not defined on the kind of its operand. -/
  | unary {p : Pos} {op : TokenKind} {x : Expr} {v : Value} : x.eval = .ok v →
      unaryKind? op v.kind = none →
        Blames (.unary p op x) ⟨.mismatchedType, p, op, true, v.kind, .invalid⟩
  /-- A binary operator that is not defined between the kinds of its operands. -/
  | binary {p : Pos} {op : TokenKind} {x y : Expr} {v w : Value} : x.eval = .ok v → y.eval = .ok w →
      resultKind? v.kind op w.kind = none →
        Blames (.binary p op x y) ⟨.mismatchedType, p, op, false, v.kind, w.kind⟩
  /-- A division of an integer by the integer zero. -/
  | quotient {p : Pos} {x y : Expr} {m : Int64} : x.eval = .ok (.int m) → y.eval = .ok (.int 0) →
      Blames (.binary p .divide x y) ⟨.divisionByZero, p, .divide, false, .int, .int⟩

/-! ### One operator -/

theorem unaryAt_of_undefined {op : TokenKind} {v : Value} (h : unaryKind? op v.kind = none) (p : Pos) :
    unaryAt p op v = .error (.runtime ⟨.mismatchedType, p, op, true, v.kind, .invalid⟩) := by
  have happly := applyUnary_foretold op v
  rw [h] at happly
  rw [unaryAt, happly]
  rfl

theorem binaryAt_of_undefined {op : TokenKind} {v w : Value} (h : resultKind? v.kind op w.kind = none)
    (p : Pos) : binaryAt p op v w =
      .error (.runtime ⟨.mismatchedType, p, op, false, v.kind, w.kind⟩) := by
  have happly := applyBinary_foretold op v w
  rw [h] at happly
  rw [binaryAt, happly]
  rfl

theorem binaryAt_quotient (p : Pos) (m : Int64) : binaryAt p .divide (.int m) (.int 0) =
    .error (.runtime ⟨.divisionByZero, p, .divide, false, .int, .int⟩) := rfl

/-- Only the quotient of an integer by zero is a division by zero: doubles have one. -/
theorem applyBinary_eq_divisionByZero {op : TokenKind} {v w : Value}
    (h : applyBinary op v w = .error .divisionByZero) : op = .divide ∧ (∃ m, v = .int m) ∧ w = .int 0 := by
  cases v with
  | int m =>
    cases w with
    | int n =>
      cases op with
      | divide =>
        by_cases hn : n = 0
        · exact ⟨rfl, ⟨m, rfl⟩, by rw [hn]⟩
        · simp [applyBinary, applyInt, hn] at h
      | _ => simp [applyBinary, applyInt] at h
    | _ => simp [applyBinary] at h
  | float a =>
    cases w with
    | float b => cases op <;> simp [applyBinary, applyFloat] at h
    | _ => simp [applyBinary] at h
  | text s =>
    cases w with
    | text t =>
      by_cases hop : op = .plus <;> simp [applyBinary, hop] at h
    | _ => simp [applyBinary] at h
  | _ => simp [applyBinary] at h

/-- What is to blame for an error evaluates to it. -/
theorem Blames.eval_eq {n : Expr} {r : RuntimeError} (h : Blames n r) : n.eval = .error (.runtime r) := by
  cases h with
  | @unary p op x v hx hkind =>
    rw [Expr.eval, hx]
    exact unaryAt_of_undefined hkind p
  | @binary p op x y v w hx hy hkind =>
    rw [Expr.eval, hx, hy]
    exact binaryAt_of_undefined hkind p
  | @quotient p x y m hx hy =>
    rw [Expr.eval, hx, hy]
    exact binaryAt_quotient p m

/-- A prefix operator whose operand has a value gives one, or is to blame. -/
theorem unaryAt_cases {x : Expr} {v : Value} (hx : x.eval = .ok v) (p : Pos) (op : TokenKind) :
    (∃ w, (Expr.unary p op x).eval = .ok w) ∨ ∃ r, Blames (.unary p op x) r := by
  have happly := applyUnary_foretold op v
  cases hkind : unaryKind? op v.kind with
  | none => exact .inr ⟨_, .unary hx hkind⟩
  | some k =>
    rw [hkind] at happly
    obtain ⟨w, hw, -⟩ := happly
    refine .inl ⟨w, ?_⟩
    rw [Expr.eval, hx]
    change unaryAt p op v = _
    rw [unaryAt, hw]

/-- A binary operator whose operands have values gives one, or is to blame. -/
theorem binaryAt_cases {x y : Expr} {v w : Value} (hx : x.eval = .ok v) (hy : y.eval = .ok w) (p : Pos)
    (op : TokenKind) :
    (∃ u, (Expr.binary p op x y).eval = .ok u) ∨ ∃ r, Blames (.binary p op x y) r := by
  have happly := applyBinary_foretold op v w
  cases hkind : resultKind? v.kind op w.kind with
  | none => exact .inr ⟨_, .binary hx hy hkind⟩
  | some k =>
    rw [hkind] at happly
    obtain ⟨u, hu, -⟩ | hzero := happly
    · refine .inl ⟨u, ?_⟩
      rw [Expr.eval, hx, hy]
      change binaryAt p op v w = _
      rw [binaryAt, hu]
    · obtain ⟨rfl, ⟨m, rfl⟩, rfl⟩ := applyBinary_eq_divisionByZero hzero
      exact .inr ⟨_, .quotient hx hy⟩

/-- An error is a division by zero where an integer is divided by zero, and else a mismatch. -/
theorem Blames.fault_cases {n : Expr} {r : RuntimeError} (h : Blames n r) :
    (n.IsZeroQuotient ∧ r.fault = .divisionByZero) ∨ (¬ n.IsZeroQuotient ∧ r.fault = .mismatchedType) := by
  cases h with
  | unary =>
    refine .inr ⟨?_, rfl⟩
    rintro ⟨_, _, _, _, ⟨⟩, -⟩
  | binary hx hy hkind =>
    refine .inr ⟨?_, rfl⟩
    rintro ⟨_, _, _, _, ⟨⟩, hx', hy'⟩
    obtain rfl := Except.ok.inj (hx.symm.trans hx')
    obtain rfl := Except.ok.inj (hy.symm.trans hy')
    have hdefined : resultKind? .int .divide .int = some .int := rfl
    exact absurd (hdefined.symm.trans hkind) nofun
  | @quotient p x y m hx hy => exact .inl ⟨⟨p, x, y, m, rfl, hx, hy⟩, rfl⟩

/-- It counts as the one or the other, never as both. -/
theorem Blames.fault_iff {n : Expr} {r : RuntimeError} (h : Blames n r) :
    (r.fault = .divisionByZero ↔ n.IsZeroQuotient) ∧
    (r.fault = .mismatchedType ↔ ¬ n.IsZeroQuotient) ∧
    ((Failure.runtime r).isDivisionByZero = true ↔ n.IsZeroQuotient) ∧
    ((Failure.runtime r).isMismatch = true ↔ ¬ n.IsZeroQuotient) := by
  have hzero : (Failure.runtime r).isDivisionByZero = decide (r.fault = .divisionByZero) := rfl
  have hmismatch : (Failure.runtime r).isMismatch = decide (r.fault ≠ .divisionByZero) := rfl
  rw [hzero, hmismatch]
  obtain ⟨hn, hr⟩ | ⟨hn, hr⟩ := h.fault_cases <;> simp [hn, hr]

/-! ### Whole trees -/

/-- Every node of the tree has a value, or the tree has the error of its first node without
one, and that node is to blame. -/
def FirstFailure (e : Expr) : Prop :=
  (∃ v, e.eval = .ok v ∧ ∀ m ∈ e.postOrder, ∃ v, m.eval = .ok v) ∨
  ∃ before n later r, e.postOrder = before ++ n :: later ∧ (∀ m ∈ before, ∃ v, m.eval = .ok v) ∧
    Blames n r ∧ e.eval = .error (.runtime r)

namespace FirstFailure

/-- Where all nodes before the root have values, the root decides. -/
theorem of_root {e : Expr} {front : List Expr} (hpost : e.postOrder = front ++ [e])
    (hfront : ∀ m ∈ front, ∃ v, m.eval = .ok v)
    (hroot : (∃ v, e.eval = .ok v) ∨ ∃ r, Blames e r) : FirstFailure e := by
  obtain ⟨v, hv⟩ | ⟨r, hr⟩ := hroot
  · refine .inl ⟨v, hv, fun m hm => ?_⟩
    rw [hpost, List.mem_append, List.mem_singleton] at hm
    obtain hm | rfl := hm
    · exact hfront m hm
    · exact ⟨v, hv⟩
  · exact .inr ⟨front, e, [], r, hpost, hfront, hr, hr.eval_eq⟩

theorem unary {x : Expr} (hx : FirstFailure x) (p : Pos) (op : TokenKind) :
    FirstFailure (.unary p op x) := by
  obtain ⟨v, hv, hall⟩ | ⟨before, n, later, r, hsplit, hbefore, hr, hx⟩ := hx
  · exact of_root rfl hall (unaryAt_cases hv p op)
  · refine .inr ⟨before, n, later ++ [.unary p op x], r, ?_, hbefore, hr, ?_⟩
    · rw [Expr.postOrder, hsplit, List.append_assoc, List.cons_append]
    · rw [Expr.eval, hx]
      rfl

theorem binary {x y : Expr} (hx : FirstFailure x) (hy : FirstFailure y) (p : Pos) (op : TokenKind) :
    FirstFailure (.binary p op x y) := by
  obtain ⟨v, hv, hallx⟩ | ⟨before, n, later, r, hsplit, hbefore, hr, hx⟩ := hx
  · obtain ⟨w, hw, hally⟩ | ⟨before, n, later, r, hsplit, hbefore, hr, hy⟩ := hy
    · have hall : ∀ m ∈ x.postOrder ++ y.postOrder, ∃ v, m.eval = .ok v := fun m hm =>
        (List.mem_append.mp hm).elim (hallx m) (hally m)
      exact of_root rfl hall (binaryAt_cases hv hw p op)
    -- the left operand has a value, so the first failure is that of the right one
    · refine .inr ⟨x.postOrder ++ before, n, later ++ [.binary p op x y], r, ?_, ?_, hr, ?_⟩
      · simp [Expr.postOrder, hsplit]
      · exact fun m hm => (List.mem_append.mp hm).elim (hallx m) (hbefore m)
      · rw [Expr.eval, hv, hy]
        rfl
  · refine .inr ⟨before, n, later ++ y.postOrder ++ [.binary p op x y], r, ?_, hbefore, hr, ?_⟩
    · simp [Expr.postOrder, hsplit]
    · rw [Expr.eval, hx]
      rfl

/-- Where a tree fails, it has the error of whatever node is to blame before which all nodes
have values. -/
theorem eval_eq {e : Expr} (h : FirstFailure e) {before later : List Expr} {n : Expr} {r : RuntimeError}
    (hsplit : e.postOrder = before ++ n :: later) (hbefore : ∀ m ∈ before, ∃ v, m.eval = .ok v)
    (hr : Blames n r) : e.eval = .error (.runtime r) := by
  have hfail : ∀ {m : Expr} {r : RuntimeError}, Blames m r → ¬ ∃ v, m.eval = .ok v := by
    rintro m r hr ⟨v, hv⟩
    simp [hr.eval_eq] at hv
  obtain ⟨v, hv, hall⟩ | ⟨before', n', later', r', hsplit', hbefore', hr', heval⟩ := h
  · exact absurd (hall n (by simp [hsplit])) (hfail hr)
  -- two first nodes without a value are at the same place of the list
  · rw [hsplit, List.append_eq_append_iff] at hsplit'
    obtain ⟨gap, rfl, hgap⟩ | ⟨gap, rfl, hgap⟩ := hsplit'
    · cases gap with
      | nil =>
        obtain ⟨rfl, -⟩ := List.cons.inj hgap
        rw [heval, ← hr'.eval_eq, hr.eval_eq]
      | cons m gap =>
        obtain ⟨rfl, -⟩ := List.cons.inj hgap
        exact absurd (hbefore' n (by simp)) (hfail hr)
    · cases gap with
      | nil =>
        obtain ⟨rfl, -⟩ := List.cons.inj hgap
        rw [heval, ← hr'.eval_eq, hr.eval_eq]
      | cons m gap =>
        obtain ⟨rfl, -⟩ := List.cons.inj hgap
        exact absurd (hbefore n' (by simp)) (hfail hr')

end FirstFailure

theorem Expr.Complete.firstFailure {e : Expr} (he : e.Complete) : FirstFailure e := by
  induction e with
  | lit p v =>
    have hpost : (Expr.lit p v).postOrder = [] ++ [.lit p v] := rfl
    exact .of_root hpost (by simp) (.inl ⟨v, rfl⟩)
  | unary p op x ih => exact (ih he).unary p op
  | binary p op x y ihx ihy => exact (ihx he.1).binary (ihy he.2) p op
  | hole => exact he.elim
  | foreign => exact he.elim

/-- **The evaluation reports the first operator that fails.** A complete tree has no value
exactly if one of its operators is to blame for an error: its operands have values, and it
is not defined on these or divides an integer by zero. The error is that of the first
operator to blame, and all nodes before that one have values. It is a division by zero for
the quotient of an integer by zero and else a mismatch, and counts as that one only. -/
theorem eval_reports_first_failure {e : Expr} (he : e.Complete) :
    ((∃ err, e.eval = .error err) ↔ ∃ n ∈ e.postOrder, ∃ r, Blames n r) ∧
    (∀ err, e.eval = .error err ↔ ∃ before n later r, e.postOrder = before ++ n :: later ∧
      (∀ m ∈ before, ∃ v, m.eval = .ok v) ∧ Blames n r ∧ err = .runtime r) ∧
    ∀ n r, Blames n r → (r.fault = .divisionByZero ↔ n.IsZeroQuotient) ∧
      (r.fault = .mismatchedType ↔ ¬ n.IsZeroQuotient) ∧
      ((Failure.runtime r).isDivisionByZero = true ↔ n.IsZeroQuotient) ∧
      ((Failure.runtime r).isMismatch = true ↔ ¬ n.IsZeroQuotient) := by
  have hfirst := he.firstFailure
  refine ⟨⟨?_, ?_⟩, fun err => ⟨fun herr => ?_, ?_⟩, fun n r hr => hr.fault_iff⟩
  · rintro ⟨err, herr⟩
    obtain ⟨v, hv, -⟩ | ⟨before, n, later, r, hsplit, -, hr, -⟩ := hfirst
    · simp [herr] at hv
    · exact ⟨n, by simp [hsplit], r, hr⟩
  · rintro ⟨n, hn, r, hr⟩
    obtain ⟨v, -, hall⟩ | ⟨_, _, _, r', -, -, -, heval⟩ := hfirst
    · obtain ⟨w, hw⟩ := hall n hn
      simp [hr.eval_eq] at hw
    · exact ⟨_, heval⟩
  · obtain ⟨v, hv, -⟩ | ⟨before, n, later, r, hsplit, hbefore, hr, heval⟩ := hfirst
    · simp [herr] at hv
    · exact ⟨before, n, later, r, hsplit, hbefore, hr, Except.error.inj (herr.symm.trans heval)⟩
  · rintro ⟨before, n, later, r, hsplit, hbefore, hr, rfl⟩
    exact hfirst.eval_eq hsplit hbefore hr

/-- The tree of `-'a' + 1 / 0`, in which a mismatch comes before a division by zero. -/
def twoFailures : Expr :=
  .binary ⟨"", 1, 6⟩ .plus (.unary ⟨"", 1, 1⟩ .minus (.lit ⟨"", 1, 2⟩ (.text "a")))
    (.binary ⟨"", 1, 10⟩ .divide (.lit ⟨"", 1, 8⟩ (.int 1)) (.lit ⟨"", 1, 12⟩ (.int 0)))

theorem twoFailures_reports_first : twoFailures.Complete ∧ (∃ n ∈ twoFailures.postOrder, n.IsZeroQuotient) ∧
    twoFailures.eval =
      .error (.runtime ⟨.mismatchedType, ⟨"", 1, 1⟩, .minus, true, .text, .invalid⟩) := by
  have hc : twoFailures.Complete := ⟨trivial, trivial, trivial⟩
  have hquotient : ∃ n ∈ twoFailures.postOrder, n.IsZeroQuotient :=
    ⟨_, .tail _ (.tail _ (.tail _ (.tail _ (.head _)))), _, _, _, 1, rfl, rfl, rfl⟩
  refine ⟨hc, hquotient, ((eval_reports_first_failure hc).2.1 _).mpr ?_⟩
  exact ⟨[.lit ⟨"", 1, 2⟩ (.text "a")], _, _, _, rfl, by simp [Expr.eval], .unary rfl (by decide), rfl⟩

end Pseudocode
