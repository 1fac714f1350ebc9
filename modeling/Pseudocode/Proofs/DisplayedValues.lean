/-
# Displayed results evaluate back

A result is shown without the source it comes from, and a number below zero is shown with
a minus sign in front. Read as source text that sign is a prefix operator and the rest a
literal, so running the text negates what the digits stand for (`outcome_minus`). Every
truth value, every integer but the least and every finite double comes back this way: the
digits behind the sign are those of the negated number (`toString_toInt_neg`,
`floatText_neg`), and negating twice gives the number again, also for a zero with a sign.

The least integer is the one exception. Its digits stand for a number that has no 63
bits, and the scanner stops at the first of them (`leastInteger_fault`).

Key theorems: `outcome_source`, `outcome_minus`, `floatText_neg`, `leastInteger_fault`,
`displayed_value_evaluates_back`.
-/
import Pseudocode.Proofs.RunReport
import Pseudocode.Proofs.SourceExtension

namespace Pseudocode

/-! ### Running one literal -/

theorem eval_eq_ok_of_unplaced {t t' : Expr} {v : Value} (h : t'.unplaced = t.unplaced)
    (hv : t.eval = .ok v) : t'.eval = .ok v := by
  have heval := t'.eval_unplaced
  rw [h, t.eval_unplaced, hv] at heval
  cases ht' : t'.eval with
  | ok w =>
    rw [ht'] at heval
    exact heval.symm
  | error e =>
    rw [ht'] at heval
    simp [Except.mapError] at heval

theorem outcome_eq_ok_of_parseSource {file src : String} {t : Expr} {v : Value}
    (h : parseSource file src = .ok t) (hv : t.eval = .ok v) : (runSource file src).outcome = .ok v := by
  obtain ⟨ts, hscan, hparse⟩ := parseSource_eq_ok_iff.mp h
  rw [outcome_of_parse hscan hparse, hv]
  rfl

/-- The source of a literal runs to its value. -/
theorem outcome_source (file : String) {v : Value} (h : v.Printable) :
    (runSource file v.source).outcome = .ok v := by
  have hlit : (Expr.lit {} v).Printable := h
  obtain ⟨t, hparse, htree⟩ := exists_parseSource_source file hlit
  exact outcome_eq_ok_of_parseSource hparse (eval_eq_ok_of_unplaced htree rfl)

/-! ### Running a literal behind a minus sign -/

/-- The lexemes of a minus sign and a literal. -/
def minusPieces (v : Value) : List Piece :=
  [plainPiece [] .minus, ⟨[], v.source.toList, .literal, v, ""⟩]

theorem split_minus {v : Value} (h : v.Printable) : Split ("-" ++ v.source).toList (minusPieces v) [] := by
  have hmax : Maximal TokenKind.minus.spelling.toList (v.source.toList ++ []) :=
    .of_symbol (c := '-') (by decide) (by decide) (by simp) (by simp)
  have hliteral : Split ([] ++ (v.source.toList ++ [])) [⟨[], v.source.toList, .literal, v, ""⟩] [] :=
    .more (p := ⟨[], v.source.toList, .literal, v, ""⟩) isSpacing_nil (Value.spells_source h)
      (maximal_nil _) (.done isSpacing_nil)
  have hminus := Split.plain .minus (.inl (by decide)) isSpacing_nil hmax hliteral
  simpa [minusPieces, TokenKind.spelling] using hminus

theorem derives_minus (v : Value) :
    Derives .unary ((minusPieces v).map Piece.token) (.unary {} .minus (.lit {} v)) := by
  have hliteral : Derives .primary [(⟨[], v.source.toList, .literal, v, ""⟩ : Piece).token] (.lit {} v) :=
    .literal rfl
  have hminus : (plainPiece [] .minus).token.kind ∈ prefixOperators := by decide
  exact .prefixed hminus (hliteral.of_primary .unary)

/-- A minus sign and the source of a literal run to the negated value. -/
theorem outcome_minus (file : String) {v w : Value} (h : v.Printable) (hw : applyUnary .minus v = .ok w) :
    (runSource file ("-" ++ v.source)).outcome = .ok w := by
  obtain ⟨t, hparse, htree⟩ := exists_parseSource_of_split file (split_minus h) (derives_minus v)
  have heval : (Expr.unary {} .minus (.lit {} v)).eval = .ok w := by
    show unaryAt {} .minus v = .ok w
    rw [unaryAt, hw]
  exact outcome_eq_ok_of_parseSource hparse (eval_eq_ok_of_unplaced htree heval)

/-! ### Integers -/

theorem toInt_neg_of_ne {n : Int64} (h : n ≠ Int64.minValue) : (-n).toInt = -n.toInt := by
  have hle := n.le_toInt
  have hlt := n.toInt_lt
  have hne : n.toInt ≠ -2 ^ 63 := by
    intro he
    exact h (Int64.toInt_inj.mp he)
  rw [Int64.toInt_neg]
  apply Int.bmod_eq_of_le <;> omega

/-- The digits behind the sign are those of the negated integer. -/
theorem toString_toInt_neg {n : Int64} (hneg : n < 0) (h : n ≠ Int64.minValue) :
    toString n.toInt = "-" ++ toString (-n).toInt := by
  have hlt : n.toInt < 0 := Int64.lt_iff_toInt_lt.mp hneg
  rw [toInt_neg_of_ne h, Int.toString_eq_repr, Int.toString_eq_repr, Int.repr_eq_if, if_neg (by omega),
    Int.repr_eq_if, if_pos (by omega)]

theorem outcome_int (file : String) {n : Int64} (h : n ≠ Int64.minValue) :
    (runSource file (Value.int n).display).outcome = .ok (.int n) := by
  by_cases hneg : n < 0
  · have hpos : (Value.int (-n)).Printable := by
      show 0 ≤ -n
      rw [Int64.le_iff_toInt_le, toInt_neg_of_ne h]
      have hlt := Int64.lt_iff_toInt_lt.mp hneg
      rw [Int64.toInt_zero] at hlt ⊢
      omega
    have hback : applyUnary .minus (.int (-n)) = .ok (.int n) := by
      simp [applyUnary, Int64.neg_neg]
    have hdisplay : (Value.int n).display = "-" ++ (Value.int (-n)).source := toString_toInt_neg hneg h
    rw [hdisplay]
    exact outcome_minus file hpos hback
  · exact outcome_source file (v := .int n) (Int64.not_lt.mp hneg)

/-- The digits of the least integer are too large a number, behind the sign. -/
theorem leastInteger_fault (file : String) :
    FirstFault file (Value.int Int64.minValue).display.toList [plainPiece [] .minus] []
      "9223372036854775808".toList [] ⟨.badInt, ⟨file, 1, 2⟩, 0⟩ where
  leads := by
    have hmax : Maximal TokenKind.minus.spelling.toList "9223372036854775808".toList :=
      .of_symbol (c := '-') (by decide) (by decide) (by simp) (by simp)
    exact .more (p := plainPiece [] .minus) isSpacing_nil (.symbol (by decide)) hmax .done
  blank := isSpacing_nil
  head := by simpa using show ¬ isSpacing '9' by decide
  fault := by
    have hrun : NumberRun "9223372036854775808".toList := ⟨⟨'9', rfl, by decide⟩, List.all_eq_true.mp rfl⟩
    have hvalue : numberValue "9223372036854775808".toList = .error .badInt := rfl
    exact ⟨_, .number hrun (by simp) ((numberValue_eq_error_iff hrun).mp hvalue).1, rfl⟩

/-! ### Doubles -/

/-- A double with a sign is written as the negated double behind a minus sign. -/
theorem floatText_neg {x : Float} (h : x.isFinite) (hsign : twoTo 63 ≤ x.toBits.toNat) :
    floatText x = "-" ++ floatText (-x) := by
  have hlt := x.toBits.toNat_lt
  have hfin := (isFinite_iff x).mp h
  have htwo : twoTo 63 = 2 ^ 63 := rfl
  have hbits : (-x).toBits.toNat = x.toBits.toNat % twoTo 63 := by
    rw [toNat_toBits_neg h, htwo]
    omega
  have hpattern : x.toBits.toNat % twoTo 63 < infinityPattern := by
    rw [infinityPattern_eq, htwo]
    omega
  have hneg := floatText_of_lt (hbits ▸ hpattern)
  rw [hbits] at hneg
  rw [← String.toList_inj, String.toList_append, hneg, floatText]
  simp only
  rw [if_neg (Nat.lt_asymm hpattern), if_neg (Nat.ne_of_lt hpattern), if_pos hsign,
    String.toList_ofList]
  rfl

theorem outcome_float (file : String) {x : Float} (h : x.isFinite) :
    (runSource file (Value.float x).display).outcome = .ok (.float x) := by
  by_cases hsign : x.toBits.toNat < twoTo 63
  · exact outcome_source file (v := .float x) ⟨h, hsign⟩
  · have hge := Nat.le_of_not_lt hsign
    have hlt := x.toBits.toNat_lt
    have hpos : (Value.float (-x)).Printable := by
      refine ⟨isFinite_neg h, ?_⟩
      have htwo : twoTo 63 = 2 ^ 63 := rfl
      rw [toNat_toBits_neg h]
      omega
    have hback : applyUnary .minus (.float (-x)) = .ok (.float x) := by
      simp [applyUnary, neg_neg_of_isFinite h]
    have hdisplay : (Value.float x).display = "-" ++ (Value.float (-x)).source := floatText_neg h hge
    rw [hdisplay]
    exact outcome_minus file hpos hback

/-- **A displayed result evaluates back to itself**, with one exception. Running the text
that a truth value, an integer or a finite double is displayed as gives that value again,
the sign of a zero included. Only the text of the least integer does not run: scanning
fails in its second column, as the digits are too large a number. -/
theorem displayed_value_evaluates_back (file : String) :
    (∀ b : Bool, (runSource file (Value.bool b).display).outcome = .ok (.bool b)) ∧
    (∀ n : Int64, n ≠ Int64.minValue → (runSource file (Value.int n).display).outcome = .ok (.int n)) ∧
    (runSource file (Value.int Int64.minValue).display).outcome =
      .error (.staged .scanner (.scan ⟨.badInt, ⟨file, 1, 2⟩, 0⟩)) ∧
    ∀ x : Float, x.isFinite → (runSource file (Value.float x).display).outcome = .ok (.float x) := by
  refine ⟨fun b => outcome_source file (v := .bool b) trivial, fun n hn => outcome_int file hn, ?_,
    fun x hx => outcome_float file hx⟩
  rw [runSource_of_scan_error (leastInteger_fault file).scan_eq]

/-- Zero with a sign. -/
def negativeZero : Float := Float.ofBits 0x8000000000000000

theorem negativeZero_evaluates_back :
    (-9223372036854775807 : Int64) ≠ Int64.minValue ∧ negativeZero.isFinite ∧
    (runSource "" "-9223372036854775807").outcome = .ok (.int (-9223372036854775807)) ∧
    (runSource "" "-0.0").outcome = .ok (.float negativeZero) := by
  obtain ⟨-, hint, -, hfloat⟩ := displayed_value_evaluates_back ""
  have hne : (-9223372036854775807 : Int64) ≠ Int64.minValue := by decide
  have hfin : negativeZero.isFinite := by decide +kernel
  have hdigits : (Value.int (-9223372036854775807)).display = "-9223372036854775807" := by decide +kernel
  have hzero : (Value.float negativeZero).display = "-0.0" := by decide +kernel
  exact ⟨hne, hfin, hdigits ▸ hint _ hne, hzero ▸ hfloat _ hfin⟩

end Pseudocode
