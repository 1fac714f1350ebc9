/-
# Numeric literals

What the scanner makes of a digit and the digits and points behind it depends on three
things only, and in this order: whether a letter follows, how many points there are, and
how large the number is. A letter is the error, whatever stands in front of it. Without a
point the number must have at most 63 bits, leading zeros not counted. With one it is the
nearest double, and it is out of range from half a unit above the greatest double on
(`nearestPattern_lt_infinityPattern_iff`). With more points there is no number. The
scanner is behind the digits and points in any case, also when it reports an error, and
what is wrong with a number is reported at its first digit.

Key definition: `rangeEnd`.
Key theorems: `nearestPattern_lt_infinityPattern_iff`, `Decimal.nearest?_isSome_iff`,
`Scanner.next_number`, `numeric_literal_classified`.
-/
import Pseudocode.Proofs.LexicalFaults
import Pseudocode.Proofs.ReadBack
import Pseudocode.Proofs.Tokenization

namespace Pseudocode

/-! ### The range of doubles -/

/-- Half a unit above the greatest double. Numbers from here on round to no double. -/
def rangeEnd : Nat := 2 ^ 1024 - 2 ^ 970

theorem roundDiv_le {num den m : Nat} (hden : 0 < den) (h : 2 * num < (2 * m + 1) * den) :
    roundDiv num den ≤ m := by
  have hdiv := Nat.div_add_mod num den
  have hsplit : (2 * m + 1) * den = 2 * (m * den) + den := by ring
  rw [Nat.mul_comm] at hdiv
  have hle : num / den ≤ m := by
    by_contra hlt
    have hmul := Nat.mul_le_mul_right den (by omega : m + 1 ≤ num / den)
    rw [Nat.succ_mul] at hmul
    omega
  rcases Nat.lt_or_eq_of_le hle with hlt | heq
  · rcases roundDiv_eq_or num den with hr | hr <;> omega
  · -- the quotient is `m`, and less than half of the divisor is left
    rw [heq] at hdiv
    have hdown : roundDiv num den = num / den := by
      rw [roundDiv, if_pos]
      simp only [Bool.or_eq_true, decide_eq_true_eq]
      omega
    omega

theorem lt_roundDiv {num den m : Nat} (hden : 0 < den) (hodd : m % 2 = 1)
    (h : (2 * m + 1) * den ≤ 2 * num) : m < roundDiv num den := by
  have hdiv := Nat.div_add_mod num den
  have hsplit : (2 * m + 1) * den = 2 * (m * den) + den := by ring
  rw [Nat.mul_comm] at hdiv
  have hle : m ≤ num / den := by
    rw [Nat.le_div_iff_mul_le hden]
    omega
  rcases Nat.lt_or_eq_of_le hle with hlt | heq
  · rcases roundDiv_eq_or num den with hr | hr <;> omega
  · -- half of the divisor or more is left, and a half goes up from an odd quotient
    have hmod := Nat.mod_lt num hden
    have hup : roundDiv num den = num / den + 1 := by
      rw [roundDiv, if_neg]
      simp only [Bool.or_eq_true, decide_eq_true_eq, Bool.and_eq_true, beq_iff_eq]
      rw [← heq] at hdiv ⊢
      omega
    omega

theorem le_roundDiv {num den m : Nat} (hden : 0 < den) (h : m * den ≤ num) : m ≤ roundDiv num den := by
  have hle : m ≤ num / den := (Nat.le_div_iff_mul_le hden).mpr h
  rcases roundDiv_eq_or num den with hr | hr <;> omega

theorem twoTo_le_twoTo {m n : Nat} (h : m ≤ n) : twoTo m ≤ twoTo n := Nat.pow_le_pow_right (by decide) h

/-- A number lies in the binade of its scale; below the least one there is no other. -/
theorem scale_bounds {units den s : Nat} (hden : 0 < den) (hs : (units / den).log2 - 52 = s) :
    units < 2 ^ 53 * (den * twoTo s) ∧ (s = 0 ∨ 2 ^ 52 * (den * twoTo s) ≤ units) := by
  have hpow : ∀ k, 2 ^ k * (den * twoTo s) = den * 2 ^ (s + k) := by
    intro k
    rw [Nat.pow_add]
    show 2 ^ k * (den * 2 ^ s) = _
    ring
  rw [hpow, hpow]
  constructor
  · have hlog : units / den < 2 ^ ((units / den).log2 + 1) := Nat.lt_log2_self
    have hmono : 2 ^ ((units / den).log2 + 1) ≤ 2 ^ (s + 53) := twoTo_le_twoTo (by omega)
    exact (Nat.div_lt_iff_lt_mul hden).mp (Nat.lt_of_lt_of_le hlog hmono) |>.trans_eq (Nat.mul_comm _ _)
  · rcases Nat.eq_zero_or_pos s with hzero | hpos
    · exact .inl hzero
    · right
      have hne : units / den ≠ 0 := by
        intro he
        rw [he, Nat.log2_zero] at hs
        omega
      have hlog : 2 ^ (s + 52) ≤ units / den := (Nat.le_log2 hne).mp (by omega)
      rw [Nat.mul_comm]
      exact (Nat.le_div_iff_mul_le hden).mp hlog

theorem rangeEnd_mul_leastUnit : rangeEnd * leastUnit = (2 * (2 ^ 53 - 1) + 1) * twoTo 2044 := by
  decide +kernel

/-- **A number rounds to a double exactly if it is below the end of the range.** -/
theorem nearestPattern_lt_infinityPattern_iff {num den : Nat} (hden : 0 < den) :
    nearestPattern num den < infinityPattern ↔ num < rangeEnd * den := by
  have hunits : num < rangeEnd * den ↔ num * leastUnit < (2 * (2 ^ 53 - 1) + 1) * (den * twoTo 2044) := by
    rw [← Nat.mul_lt_mul_right leastUnit_pos, Nat.mul_right_comm, rangeEnd_mul_leastUnit, Nat.mul_assoc,
      Nat.mul_comm den]
  rw [hunits, nearestPattern, infinityPattern_eq, (by decide : twoTo 52 = 2 ^ 52)]
  generalize num * leastUnit = units
  generalize hs : (units / den).log2 - 52 = s
  obtain ⟨hupper, hlower⟩ := scale_bounds hden hs
  have hscale : 0 < den * twoTo s := Nat.mul_pos hden (twoTo_pos s)
  rcases Nat.lt_trichotomy s (2044 + 1) with hlt | rfl | hgt
  · -- a smaller scale: all numbers of the binade round to doubles
    have hmono : den * twoTo s ≤ den * twoTo 2044 :=
      Nat.mul_le_mul_left den (twoTo_le_twoTo (Nat.le_of_lt_succ hlt))
    have hround : roundDiv units (den * twoTo s) ≤ 2 ^ 53 := roundDiv_le hscale (by omega)
    omega
  · -- the last scale: its greatest significand is odd, so half a unit above it goes up
    rw [mul_twoTo_add, (by decide : twoTo 1 = 2)] at hscale ⊢
    constructor
    · intro hround
      by_contra hge
      have hup : 2 ^ 53 - 1 < roundDiv units (2 * (den * twoTo 2044)) := lt_roundDiv hscale (by decide) (by omega)
      omega
    · intro hbelow
      have hdown : roundDiv units (2 * (den * twoTo 2044)) ≤ 2 ^ 53 - 1 := roundDiv_le hscale (by omega)
      omega
  · -- a larger scale: no number of the binade does
    have hmono : den * twoTo (2044 + 2) ≤ den * twoTo s := Nat.mul_le_mul_left den (twoTo_le_twoTo hgt)
    rw [mul_twoTo_add, (by decide : twoTo 2 = 4)] at hmono
    have hround : 2 ^ 52 ≤ roundDiv units (den * twoTo s) := le_roundDiv hscale (by omega)
    omega

/-- A decimal fraction is read as a double exactly if it is below the end of the range. -/
theorem Decimal.nearest?_isSome_iff (d : Decimal) : d.nearest?.isSome ↔ d.coeff < rangeEnd * tenTo d.places := by
  rw [nearest?, nearestFloat?, ← nearestPattern_lt_infinityPattern_iff (tenTo_pos d.places)]
  simp

/-! ### The value of digits and points -/

theorem numberValue_error {d : List Char} (hd : NumberRun d) (h : ∀ v, numberValue d ≠ .ok v) :
    numberValue d = .error (numberFault d) := by
  refine (numberValue_eq_error_iff hd).mpr ⟨fun v hv => ?_, rfl⟩
  exact h v ((numberValue_eq_ok_iff hd.all hd.head).mpr hv)

theorem numberFault_of_count {d : List Char} (h : 1 ≤ d.count '.') : numberFault d = .badFloat := by
  rw [numberFault, if_pos (List.count_pos_iff.mp h)]

theorem numberValue_small {d : List Char} (h : d.count '.' = 0) (hlt : Nat.ofDigitChars 10 d 0 < twoTo 63) :
    numberValue d = .ok (.int (Int64.ofNat (Nat.ofDigitChars 10 d 0))) := by
  have hpoint : d.contains '.' = false := by simpa using List.count_eq_zero.mp h
  exact (numberValue_of_no_point hpoint).mpr ⟨hlt, rfl⟩

theorem numberValue_large {d : List Char} (hd : NumberRun d) (h : d.count '.' = 0)
    (hle : twoTo 63 ≤ Nat.ofDigitChars 10 d 0) : numberValue d = .error .badInt := by
  have hpoint : d.contains '.' = false := by simpa using List.count_eq_zero.mp h
  have hfault : numberFault d = .badInt := by rw [numberFault, if_neg (List.count_eq_zero.mp h)]
  rw [← hfault]
  apply numberValue_error hd
  intro v hv
  exact Nat.not_lt_of_le hle ((numberValue_of_no_point hpoint).mp hv).1

/-- Digits with one point are read as the double nearest to them, or not at all. -/
theorem numberValue_fraction {whole fraction : List Char} (hd : NumberRun (whole ++ '.' :: fraction))
    (h : (whole ++ '.' :: fraction).count '.' = 1) {v : Value} :
    numberValue (whole ++ '.' :: fraction) = .ok v ↔ ∃ x : Float,
      Decimal.nearest? ⟨Nat.ofDigitChars 10 (whole ++ fraction) 0, fraction.length⟩ = some x ∧ v = .float x := by
  have hpoint : (whole ++ '.' :: fraction).contains '.' = true := by simp
  rw [List.count_append, List.count_cons_self] at h
  have hwhole : '.' ∉ whole := List.count_eq_zero.mp (by omega)
  have hfraction : '.' ∉ fraction := List.count_eq_zero.mp (by omega)
  have hw : ∀ c ∈ whole, isAsciiDigit c := fun c hc =>
    isAsciiDigit_of_ne_point (hd.all c (by simp [hc])) fun he => hwhole (he ▸ hc)
  have hf : ∀ c ∈ fraction, isAsciiDigit c := fun c hc =>
    isAsciiDigit_of_ne_point (hd.all c (by simp [hc])) fun he => hfraction (he ▸ hc)
  rw [numberValue_of_point hpoint, Decimal.read?_point hw hf]
  simp

theorem Numeral.count_point_le {d : List Char} {v : Value} (h : Numeral d v) : d.count '.' ≤ 1 := by
  have hzero : ∀ {ds : List Char}, (∀ c ∈ ds, isAsciiDigit c) → ds.count '.' = 0 := by
    intro ds hds
    rw [List.count_eq_zero]
    intro hm
    exact ne_point_of_isAsciiDigit (hds _ hm) rfl
  cases h with
  | int _ hds _ =>
    rw [hzero hds]
    decide
  | float _ hw hf _ => rw [List.count_append, List.count_cons_self, hzero hw, hzero hf]

theorem numberValue_points {d : List Char} (hd : NumberRun d) (h : 2 ≤ d.count '.') :
    numberValue d = .error .badFloat := by
  rw [← numberFault_of_count (by omega : 1 ≤ d.count '.')]
  apply numberValue_error hd
  intro v hv
  have hle := ((numberValue_eq_ok_iff hd.all hd.head).mp hv).count_point_le
  omega

/-! ### The step of the scanner -/

/-- The place so many columns further on the same line. -/
def Pos.right (p : Pos) (columns : Nat) : Pos := { p with col := p.col + columns }

theorem Pos.advanceBy_number : ∀ {d : List Char}, (∀ c ∈ d, isNumberChar c) → ∀ p : Pos,
    p.advanceBy d = p.right d.length
  | [], _, p => by simp [advanceBy, right]
  | c :: d, hd, p => by
    have hc : c ≠ '\n' := by
      rintro rfl
      exact absurd (hd '\n' (by simp)) (by decide)
    have hrest : ∀ e ∈ d, isNumberChar e := fun e he => hd e (List.mem_cons_of_mem c he)
    have ih := advanceBy_number hrest (p.advance c)
    show (p.advance c).advanceBy d = _
    rw [ih, advance, if_neg hc]
    simp only [right, List.length_cons, Pos.mk.injEq, true_and]
    omega

/-- On digits and points a step takes all of them, and means what they mean before the
character behind them. -/
theorem Scanner.next_number {s : Scanner} {d rest : List Char} (hs : s.skipSpacing.rest = d ++ rest)
    (hd : NumberRun d) (hrest : ∀ c ∈ rest.head?, ¬ isNumberChar c) :
    s.next = (report s.skipSpacing.pos (s.skipSpacing.pos.right d.length) (numberMeaning d rest.head?),
      ⟨s.skipSpacing.pos.right d.length, rest⟩) := by
  obtain ⟨c, hhead, -⟩ := hd.head
  obtain ⟨cs, rfl⟩ := List.head?_eq_some_iff.mp hhead
  rw [List.cons_append] at hs
  unfold next
  simp only [hs, lexemeAt_number hd hrest, past, Pos.advanceBy_number hd.all]

theorem Scanner.next_value {s : Scanner} {d rest : List Char} (hs : s.skipSpacing.rest = d ++ rest)
    (hd : NumberRun d) (hrest : ∀ c ∈ rest.head?, ¬ isNumberChar c) (hletter : ∀ c ∈ rest.head?, ¬ isLetter c) :
    s.next.1 = match numberValue d with
      | .ok v => .ok { kind := .literal, pos := s.skipSpacing.pos, value := v }
      | .error fault => .error ⟨fault, s.skipSpacing.pos, 0⟩ := by
  have hnone : rest.head?.filter isLetter = none := by
    rw [Option.filter_eq_none_iff]
    exact hletter
  rw [next_number hs hd hrest, numberMeaning, hnone]
  cases numberValue d <;> rfl

/-- **What a numeric literal is.** Let the scanner stand on a digit, behind any blanks. Let `d` be the
digits and points from there on, all of them, and `rest` what is behind. A step leaves the scanner
on `rest`, whatever it gives. If `rest` starts with a letter it gives an error that names
the letter at its place. Otherwise it gives

* without a point, the integer with these digits if that is at most `2 ^ 63 - 1`, and an error if not;
* with one point, the double nearest to the fraction if that is in range, and an error if not;
* with two or more points, an error;

and these errors are at the first digit. -/
theorem numeric_literal_classified {s : Scanner} {d rest : List Char} (hs : s.skipSpacing.rest = d ++ rest)
    (hd : NumberRun d) (hrest : ∀ c ∈ rest.head?, ¬ isNumberChar c) :
    s.next.2 = ⟨s.skipSpacing.pos.right d.length, rest⟩ ∧
    (∀ c ∈ rest.head?, isLetter c →
      s.next.1 = .error ⟨.unexpectedChar, s.skipSpacing.pos.right d.length, c.toNat⟩) ∧
    ((∀ c ∈ rest.head?, ¬ isLetter c) →
      (d.count '.' = 0 → Nat.ofDigitChars 10 d 0 ≤ 2 ^ 63 - 1 → ∃ n : Int64, n.toInt = Nat.ofDigitChars 10 d 0 ∧
        s.next.1 = .ok { kind := .literal, pos := s.skipSpacing.pos, value := .int n }) ∧
      (d.count '.' = 0 → 2 ^ 63 - 1 < Nat.ofDigitChars 10 d 0 →
        s.next.1 = .error ⟨.badInt, s.skipSpacing.pos, 0⟩) ∧
      (d.count '.' = 1 → ∃ whole fraction, d = whole ++ '.' :: fraction ∧
        (Nat.ofDigitChars 10 (whole ++ fraction) 0 < rangeEnd * 10 ^ fraction.length → ∃ x : Float,
          Decimal.nearest? ⟨Nat.ofDigitChars 10 (whole ++ fraction) 0, fraction.length⟩ = some x ∧
          s.next.1 = .ok { kind := .literal, pos := s.skipSpacing.pos, value := .float x }) ∧
        (rangeEnd * 10 ^ fraction.length ≤ Nat.ofDigitChars 10 (whole ++ fraction) 0 →
          s.next.1 = .error ⟨.badFloat, s.skipSpacing.pos, 0⟩)) ∧
      (2 ≤ d.count '.' → s.next.1 = .error ⟨.badFloat, s.skipSpacing.pos, 0⟩)) := by
  have hnext := Scanner.next_number hs hd hrest
  refine ⟨congrArg Prod.snd hnext, fun c hc hletter => ?_, fun hletter => ?_⟩
  · have hglued : rest.head?.filter isLetter = some c := Option.filter_eq_some_iff.mpr ⟨hc, hletter⟩
    rw [hnext, numberMeaning, hglued]
    rfl
  rw [Scanner.next_value hs hd hrest hletter]
  have htwo : twoTo 63 = 2 ^ 63 := rfl
  refine ⟨fun hcount hle => ?_, fun hcount hlt => ?_, fun hcount => ?_, fun hcount => ?_⟩
  · have hlt : Nat.ofDigitChars 10 d 0 < twoTo 63 := by omega
    exact ⟨_, Int64.toInt_ofNat_of_lt hlt, by rw [numberValue_small hcount hlt]⟩
  · rw [numberValue_large hd hcount (by omega)]
  · obtain ⟨whole, fraction, rfl⟩ := List.append_of_mem (List.count_pos_iff.mp (by omega : 0 < d.count '.'))
    have hvalue := fun v => numberValue_fraction hd hcount (v := v)
    have hrange := Decimal.nearest?_isSome_iff ⟨Nat.ofDigitChars 10 (whole ++ fraction) 0, fraction.length⟩
    refine ⟨whole, fraction, rfl, fun hlt => ?_, fun hle => ?_⟩
    · obtain ⟨x, hx⟩ := Option.isSome_iff_exists.mp (hrange.mpr hlt)
      exact ⟨x, hx, by rw [(hvalue _).mpr ⟨x, hx, rfl⟩]⟩
    · rw [numberValue_error hd, numberFault_of_count (by omega)]
      intro v hv
      obtain ⟨x, hx, -⟩ := (hvalue v).mp hv
      exact Nat.not_lt_of_le hle (hrange.mp (Option.isSome_iff_exists.mpr ⟨x, hx⟩))
  · rw [numberValue_points hd hcount]

/-- Two points and a letter behind them. -/
def gluedPoints : Scanner := ⟨⟨"in", 1, 1⟩, " 1.2.3x".toList⟩

/-- The greatest integer behind zeros. -/
def paddedInteger : Scanner := ⟨⟨"in", 1, 1⟩, "0009223372036854775807)".toList⟩

theorem gluedPoints_classified :
    gluedPoints.next = (.error ⟨.unexpectedChar, ⟨"in", 1, 7⟩, 'x'.toNat⟩, ⟨⟨"in", 1, 7⟩, ['x']⟩) ∧
    paddedInteger.next.2 = ⟨⟨"in", 1, 23⟩, [')']⟩ ∧ ∃ n : Int64, n.toInt = 2 ^ 63 - 1 ∧
      paddedInteger.next.1 = .ok { kind := .literal, pos := ⟨"in", 1, 1⟩, value := .int n } := by
  have hpoints : NumberRun "1.2.3".toList := ⟨⟨'1', rfl, by decide⟩, List.all_eq_true.mp rfl⟩
  have hzeros : NumberRun "0009223372036854775807".toList := ⟨⟨'0', rfl, by decide⟩, List.all_eq_true.mp rfl⟩
  have hletter : gluedPoints.skipSpacing.rest = "1.2.3".toList ++ ['x'] := by decide
  have hend : paddedInteger.skipSpacing.rest = "0009223372036854775807".toList ++ [')'] := by decide
  obtain ⟨hx, hglued, -⟩ := numeric_literal_classified hletter hpoints (by simp; decide)
  obtain ⟨hparen, -, hvalue⟩ := numeric_literal_classified hend hzeros (by simp; decide)
  obtain ⟨hint, -⟩ := hvalue (by simp; decide)
  exact ⟨Prod.ext (hglued 'x' rfl (by decide)) hx, hparen, hint (by decide) (by decide)⟩

end Pseudocode
