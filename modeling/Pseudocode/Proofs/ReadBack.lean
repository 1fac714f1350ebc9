/-
# Written doubles read back

The decimal that a double is written as is read as the same double. The interval of a
double holds only numbers that round to it (`nearestPattern_of_holds`): they lie in the
binade of the double or, below the least double of a binade, in the binade before. The
search for a decimal stops on the first grid with a point in the interval, and the finest
grid always has one, as its step is less than half of any interval (`onGrid?_zero`). The
digits that are written stand for the decimal (`Decimal.exists_chars_eq`).

Key definition: `ReadBack.Holds`.
Key theorems: `roundDiv_eq`, `nearestPattern_of_holds`, `nearestPattern_shortestDecimal`,
`numeral_floatText`.
-/
import Pseudocode.Proofs.DoubleBits
import Pseudocode.Proofs.LexicalRules

namespace Pseudocode

/-! ### Rounding -/

/-- The nearest integer is the one that is at most half away; if it is exactly that, it
must be even. -/
theorem roundDiv_eq {num den m : Nat} (hden : 0 < den) (hlow : 2 * (m * den) ≤ 2 * num + den)
    (hhigh : 2 * num ≤ 2 * (m * den) + den)
    (htie : m % 2 = 1 → 2 * (m * den) < 2 * num + den ∧ 2 * num < 2 * (m * den) + den) :
    roundDiv num den = m := by
  have hdiv := Nat.div_add_mod num den
  have hmod := Nat.mod_lt num hden
  rw [Nat.mul_comm] at hdiv
  have hle : num / den ≤ m := by
    by_contra hlt
    have hmul := Nat.mul_le_mul_right den (by omega : m + 1 ≤ num / den)
    rw [Nat.succ_mul] at hmul
    omega
  have hge : m ≤ num / den + 1 := by
    by_contra hlt
    have hmul := Nat.mul_le_mul_right den (by omega : num / den + 1 + 1 ≤ m)
    rw [Nat.succ_mul, Nat.succ_mul] at hmul
    omega
  have hsucc := Nat.succ_mul (num / den) den
  rw [roundDiv]
  rcases (by omega : m = num / den ∨ m = num / den + 1) with hm | hm
  · rw [← hm] at hdiv
    rw [if_pos, hm]
    simp only [Bool.or_eq_true, decide_eq_true_eq, Bool.and_eq_true, beq_iff_eq]
    omega
  · rw [if_neg, hm]
    simp only [Bool.or_eq_true, decide_eq_true_eq, Bool.and_eq_true, beq_iff_eq]
    rw [hm, hsucc] at hlow htie
    omega

theorem roundDiv_mul {k : Nat} (hk : 0 < k) (num den : Nat) :
    roundDiv (k * num) (k * den) = roundDiv num den := by
  have hlt : 2 * (k * (num % den)) < k * den ↔ 2 * (num % den) < den := by
    rw [Nat.mul_left_comm, Nat.mul_lt_mul_left hk]
  have heq : 2 * (k * (num % den)) = k * den ↔ 2 * (num % den) = den := by
    rw [Nat.mul_left_comm, Nat.mul_right_inj (Nat.ne_of_gt hk)]
  have hb : (2 * (k * (num % den)) == k * den) = (2 * (num % den) == den) := by
    rw [Bool.eq_iff_iff, beq_iff_eq, beq_iff_eq, heq]
  rw [roundDiv, roundDiv, Nat.mul_mod_mul_left, Nat.mul_div_mul_left _ _ hk, hb, decide_eq_decide.mpr hlt]

/-- Rounding looks only at the value of a fraction. -/
theorem nearestPattern_mul {k : Nat} (hk : 0 < k) (num den : Nat) :
    nearestPattern (k * num) (k * den) = nearestPattern num den := by
  simp only [nearestPattern, Nat.mul_assoc, Nat.mul_div_mul_left _ _ hk, roundDiv_mul hk]

theorem twoTo_pos (n : Nat) : 0 < twoTo n := Nat.two_pow_pos n

theorem leastUnit_pos : 0 < leastUnit := by
  unfold leastUnit
  exact twoTo_pos 1074

theorem twoTo_add (m n : Nat) : twoTo (m + n) = twoTo m * twoTo n := Nat.pow_add 2 m n

theorem log2_sub_eq {q s : Nat} (hlt : q < 2 ^ (s + 53)) (hle : s = 0 ∨ 2 ^ (s + 52) ≤ q) :
    q.log2 - 52 = s := by
  rcases Nat.eq_zero_or_pos q with rfl | hpos
  · have := Nat.two_pow_pos (s + 52)
    rw [Nat.log2_zero]
    omega
  · have hne := Nat.ne_of_gt hpos
    have hupper := (Nat.log2_lt hne).mpr hlt
    rcases hle with rfl | hle
    · omega
    · have hlower := (Nat.le_log2 hne).mpr hle
      omega

/-- The scale is that of the binade of the fraction. -/
theorem nearestPattern_of_scale {num den s : Nat} (hden : 0 < den)
    (hlt : num * leastUnit < den * twoTo (s + 53))
    (hle : s = 0 ∨ den * twoTo (s + 52) ≤ num * leastUnit) :
    nearestPattern num den = s * twoTo 52 + roundDiv (num * leastUnit) (den * twoTo s) := by
  rw [nearestPattern]
  generalize num * leastUnit = units at *
  have hscale : (units / den).log2 - 52 = s := by
    refine log2_sub_eq (Nat.div_lt_of_lt_mul hlt) (hle.imp_right fun hle => ?_)
    rwa [Nat.le_div_iff_mul_le hden, Nat.mul_comm]
  rw [hscale]

theorem pattern_parts (p : Nat) : p = scaleOf p * twoTo 52 + significand p ∧ significand p < 2 ^ 53 ∧
    (scaleOf p = 0 ∨ 2 ^ 52 ≤ significand p) := by
  have htwo : twoTo 52 = 2 ^ 52 := rfl
  simp only [significand, scaleOf, htwo]
  omega

namespace ReadBack

/-- The fraction `num / den` is in the interval. -/
def Holds (r : ReadBack) (num den : Nat) : Prop :=
  r.low * den ≤ num * twoTo 1076 ∧ num * twoTo 1076 ≤ r.high * den ∧
    (r.closed = false → r.low * den ≠ num * twoTo 1076 ∧ num * twoTo 1076 ≠ r.high * den)

end ReadBack

theorem twoTo_1076 : twoTo 1076 = 4 * leastUnit := by
  decide +kernel

theorem mul_twoTo_add (den s k : Nat) : den * twoTo (s + k) = twoTo k * (den * twoTo s) := by
  rw [twoTo_add]
  ring

/-- A number in the binade of a double, and at most half a unit away from it. -/
theorem nearestPattern_in_binade {num den s m : Nat} (hden : 0 < den) (hm : m < 2 ^ 53)
    (hbinade : s = 0 ∨ 2 ^ 52 * (den * twoTo s) ≤ num * leastUnit)
    (hlow : 2 * (m * (den * twoTo s)) ≤ 2 * (num * leastUnit) + den * twoTo s)
    (hhigh : 2 * (num * leastUnit) ≤ 2 * (m * (den * twoTo s)) + den * twoTo s)
    (htie : m % 2 = 1 → 2 * (m * (den * twoTo s)) < 2 * (num * leastUnit) + den * twoTo s ∧
      2 * (num * leastUnit) < 2 * (m * (den * twoTo s)) + den * twoTo s) :
    nearestPattern num den = s * twoTo 52 + m := by
  have hd : 0 < den * twoTo s := Nat.mul_pos hden (twoTo_pos s)
  have htop : num * leastUnit < den * twoTo (s + 53) := by
    have hmul := Nat.mul_le_mul_right (den * twoTo s) (by omega : m ≤ 2 ^ 53 - 1)
    rw [mul_twoTo_add, (by decide : twoTo 53 = 2 ^ 53)]
    omega
  have hbottom : s = 0 ∨ den * twoTo (s + 52) ≤ num * leastUnit := by
    rwa [mul_twoTo_add, (by decide : twoTo 52 = 2 ^ 52)]
  rw [nearestPattern_of_scale hden htop hbottom, roundDiv_eq hd hlow hhigh htie]

/-- A number below the least double of a binade, and at most a quarter of a unit away
from it: half a unit in the binade of the number, where the double is the power of two
after all significands. -/
theorem nearestPattern_below_binade {num den s : Nat} (hden : 0 < den)
    (hlow : 4 * (2 ^ 52 * (den * twoTo (s + 1))) ≤ 4 * (num * leastUnit) + den * twoTo (s + 1))
    (hhigh : num * leastUnit < 2 ^ 52 * (den * twoTo (s + 1))) :
    nearestPattern num den = (s + 1) * twoTo 52 + 2 ^ 52 := by
  have hd : 0 < den * twoTo s := Nat.mul_pos hden (twoTo_pos s)
  rw [mul_twoTo_add, (by decide : twoTo 1 = 2)] at hlow hhigh
  have htop : num * leastUnit < den * twoTo (s + 53) := by
    rw [mul_twoTo_add, (by decide : twoTo 53 = 2 ^ 53)]
    omega
  have hbottom : s = 0 ∨ den * twoTo (s + 52) ≤ num * leastUnit := by
    rw [mul_twoTo_add, (by decide : twoTo 52 = 2 ^ 52)]
    omega
  have hround : roundDiv (num * leastUnit) (den * twoTo s) = 2 ^ 53 :=
    roundDiv_eq hd (by omega) (by omega) (by omega)
  rw [nearestPattern_of_scale hden htop hbottom, hround, (by decide : twoTo 52 = 2 ^ 52)]
  omega

/-- **All numbers in the interval of a double round to it.** -/
theorem nearestPattern_of_holds {p num den : Nat} (hden : 0 < den) (h : (readBackOf p).Holds num den) :
    nearestPattern num den = p := by
  obtain ⟨hp, hm, hnorm⟩ := pattern_parts p
  obtain ⟨hlow, hhigh, htie⟩ := h
  have hcomm : ∀ k, k * twoTo (scaleOf p) * den = k * (den * twoTo (scaleOf p)) := fun k => by ring
  simp only [readBackOf, twoTo_1076, hcomm, Nat.mul_left_comm num 4] at hlow hhigh htie
  generalize significand p = m at *
  generalize scaleOf p = s at *
  have hhigh' : (4 * m + 2) * (den * twoTo s) = 4 * (m * (den * twoTo s)) + 2 * (den * twoTo s) := by ring
  have hlow' : ∀ b, (4 * m - b) * (den * twoTo s) = 4 * (m * (den * twoTo s)) - b * (den * twoTo s) := by
    intro b
    rw [Nat.sub_mul, Nat.mul_assoc]
  rw [hhigh'] at hhigh htie
  rw [hlow'] at hlow htie
  subst hp
  -- the double below the least of a binade is nearer, and numbers between them are in its binade
  by_cases hleast : m = twoTo 52 ∧ s ≠ 0
  · obtain ⟨rfl, hs⟩ := hleast
    obtain ⟨t, rfl⟩ := Nat.exists_eq_add_one_of_ne_zero hs
    rw [if_pos (by simp)] at hlow
    rw [(by decide : twoTo 52 = 2 ^ 52)] at *
    rcases Nat.lt_or_ge (num * leastUnit) (2 ^ 52 * (den * twoTo (t + 1))) with hlt | hge
    · exact nearestPattern_below_binade hden (by omega) hlt
    · exact nearestPattern_in_binade hden hm (.inr hge) (by omega) (by omega) (by omega)
  -- elsewhere half a unit does not lead out of the binade
  · rw [if_neg (by simpa using hleast)] at hlow htie
    refine nearestPattern_in_binade hden hm ?_ (by omega) (by omega) fun hodd => ?_
    · rw [(by decide : twoTo 52 = 2 ^ 52)] at hleast
      by_contra hlt
      have hmul := Nat.mul_le_mul_right (den * twoTo s) (by omega : 2 ^ 52 + 1 ≤ m)
      omega
    · obtain ⟨hne, hne'⟩ := htie (by simp [hodd])
      have hmul := Nat.mul_le_mul_right (den * twoTo s) (by omega : 1 ≤ m)
      omega

/-! ### The search -/

theorem roundDiv_eq_or (num den : Nat) : roundDiv num den = num / den ∨ roundDiv num den = num / den + 1 := by
  rw [roundDiv]
  split
  · exact .inl rfl
  · exact .inr rfl

theorem tenTo_add (m n : Nat) : tenTo (m + n) = tenTo m * tenTo n := Nat.pow_add 10 m n

theorem tenTo_pos (n : Nat) : 0 < tenTo n := Nat.pow_pos (by decide)

namespace ReadBack

variable {r : ReadBack} {j n : Nat}

theorem coeff_decimalOn (j n : Nat) :
    (decimalOn j n).coeff * tenTo finestPlaces = n * tenTo j * tenTo (decimalOn j n).places := by
  unfold decimalOn
  generalize finestPlaces = finest
  split
  · next hj =>
    obtain ⟨k, rfl⟩ := Nat.exists_eq_add_of_le hj
    rw [tenTo_add, Nat.add_sub_cancel_left]
    ring
  · next hj =>
    obtain ⟨k, rfl⟩ := Nat.exists_eq_add_of_le (Nat.le_of_not_le hj)
    have hzero : tenTo 0 = 1 := rfl
    rw [Nat.add_sub_cancel_left, tenTo_add, hzero]
    ring

theorem le_iff_of_scaled {x y x' y' g d : Nat} (hg : 0 < g) (hd : 0 < d) (hx : x * g = x' * d)
    (hy : y * g = y' * d) : x ≤ y ↔ x' ≤ y' := by
  rw [← Nat.mul_le_mul_right_iff hg, hx, hy, Nat.mul_le_mul_right_iff hd]

/-- What the search compares is whether the decimal is in the interval. -/
theorem contains_iff_holds : r.contains j n ↔
    r.Holds (decimalOn j n).coeff (tenTo (decimalOn j n).places) := by
  have hcoeff := coeff_decimalOn j n
  have hg := tenTo_pos finestPlaces
  have hd := tenTo_pos (decimalOn j n).places
  unfold contains Holds
  generalize (decimalOn j n).coeff = coeff at *
  generalize tenTo (decimalOn j n).places = den at *
  generalize tenTo finestPlaces = g at *
  generalize twoTo 1076 = t
  have hpoint : coeff * t * g = n * tenTo j * t * den := by
    rw [Nat.mul_right_comm, hcoeff]
    ring
  generalize n * tenTo j * t = point at *
  have hend : ∀ k, k * den * g = k * g * den := fun k => by ring
  have hlow := le_iff_of_scaled hg hd (hend r.low) hpoint
  have hlow' := le_iff_of_scaled hg hd hpoint (hend r.low)
  have hhigh := le_iff_of_scaled hg hd hpoint (hend r.high)
  have hhigh' := le_iff_of_scaled hg hd (hend r.high) hpoint
  cases r.closed <;> simp <;> omega

theorem contains_of_onGrid? (h : r.onGrid? j = some n) : r.contains j n := by
  unfold onGrid? at h
  simp only at h
  split at h
  · next hb ha =>
    obtain rfl := Option.some.inj h
    rcases roundDiv_eq_or (r.value * tenTo finestPlaces) (tenTo j * twoTo 1076) with hr | hr
    · rw [hr, hb]
    · rw [hr, ha]
  · next hb _ => exact Option.some.inj h ▸ hb
  · next _ ha => exact Option.some.inj h ▸ ha
  · simp at h

/-- The next grid point above the double is in the interval if the grid is finer than
the upper half of it. -/
theorem contains_next (hlow : r.low ≤ r.value) (hhigh : r.value ≤ r.high)
    (hstep : tenTo j * twoTo 1076 < (r.high - r.value) * tenTo finestPlaces) :
    r.contains j (r.value * tenTo finestPlaces / (tenTo j * twoTo 1076) + 1) := by
  have hpos : 0 < tenTo j * twoTo 1076 := Nat.mul_pos (tenTo_pos j) (twoTo_pos 1076)
  unfold contains
  rw [Nat.mul_assoc _ (tenTo j)]
  rw [Nat.sub_mul] at hstep
  generalize tenTo j * twoTo 1076 = step at *
  generalize tenTo finestPlaces = g at *
  have hdiv := Nat.div_add_mod (r.value * g) step
  have hmod := Nat.mod_lt (r.value * g) hpos
  have hlow' := Nat.mul_le_mul_right g hlow
  have hhigh' := Nat.mul_le_mul_right g hhigh
  rw [Nat.mul_comm] at hdiv
  have hpoint := Nat.add_one_mul (r.value * g / step) step
  cases r.closed <;> simp <;> omega

theorem exists_onGrid?_of_contains
    (h : r.contains j (r.value * tenTo finestPlaces / (tenTo j * twoTo 1076) + 1)) :
    ∃ n, r.onGrid? j = some n := by
  rw [onGrid?]
  simp only [h]
  generalize r.contains j _ = b
  cases b
  · exact ⟨_, rfl⟩
  · exact ⟨_, rfl⟩

theorem finest_lt_interval : tenTo 0 * twoTo 1076 < 2 * tenTo finestPlaces := by
  decide +kernel

/-- The finest grid has a point in every interval. -/
theorem onGrid?_zero (p : Nat) : ∃ n, (readBackOf p).onGrid? 0 = some n := by
  have hlow : (readBackOf p).low ≤ (readBackOf p).value := Nat.mul_le_mul_right _ (Nat.sub_le _ _)
  have hhigh : (readBackOf p).high = (readBackOf p).value + 2 * twoTo (scaleOf p) := by
    simp only [readBackOf]
    ring
  have hunit : 2 * 1 ≤ 2 * twoTo (scaleOf p) := Nat.mul_le_mul_left 2 (twoTo_pos _)
  refine exists_onGrid?_of_contains (contains_next hlow (hhigh ▸ Nat.le_add_right _ _) ?_)
  rw [hhigh, Nat.add_sub_cancel_left]
  exact Nat.lt_of_lt_of_le finest_lt_interval (Nat.mul_le_mul_right _ hunit)

theorem search_holds (p : Nat) : ∀ j, (readBackOf p).Holds ((readBackOf p).search j).coeff
    (tenTo ((readBackOf p).search j).places)
  | 0 => by
    obtain ⟨n, hn⟩ := onGrid?_zero p
    rw [search, hn]
    exact contains_iff_holds.mp (contains_of_onGrid? hn)
  | j + 1 => by
    rw [search]
    split
    · next n hn => exact contains_iff_holds.mp (contains_of_onGrid? hn)
    · exact search_holds p j

end ReadBack

theorem roundDiv_zero (den : Nat) : roundDiv 0 den = 0 := by
  rcases Nat.eq_zero_or_pos den with rfl | hden
  · rfl
  · exact roundDiv_eq hden (by omega) (by omega) (by omega)

theorem nearestPattern_zero (den : Nat) : nearestPattern 0 den = 0 := by
  rw [nearestPattern, Nat.zero_mul, Nat.zero_div, Nat.log2_zero, roundDiv_zero, Nat.zero_sub, Nat.zero_mul]

theorem exists_search_eq {p : Nat} (hp : p ≠ 0) : ∃ j, shortestDecimal p = (readBackOf p).search j := by
  rw [shortestDecimal, if_neg hp]
  exact ⟨_, rfl⟩

/-- **What a double is written as rounds to it.** -/
theorem nearestPattern_shortestDecimal (p : Nat) :
    nearestPattern (shortestDecimal p).coeff (tenTo (shortestDecimal p).places) = p := by
  by_cases hp : p = 0
  · subst hp
    exact nearestPattern_zero _
  · obtain ⟨j, hj⟩ := exists_search_eq hp
    rw [hj]
    exact nearestPattern_of_holds (tenTo_pos _) (ReadBack.search_holds p j)

/-! ### Digits -/

theorem isAsciiDigit_of_mem_toDigits {n : Nat} {c : Char} (h : c ∈ Nat.toDigits 10 n) : isAsciiDigit c := by
  have hd := Nat.isDigit_of_mem_toDigits (by decide) (by decide) h
  simpa [Char.isDigit, isAsciiDigit, Char.le_def] using hd

namespace Decimal

theorem isAsciiDigit_of_mem_digits {d : Decimal} {c : Char} (h : c ∈ d.digits) : isAsciiDigit c := by
  rcases List.mem_append.mp h with h | h
  · rw [List.eq_of_mem_replicate h]
    decide
  · exact isAsciiDigit_of_mem_toDigits h

theorem ofDigitChars_digits (d : Decimal) : Nat.ofDigitChars 10 d.digits 0 = d.coeff := by
  rw [digits, Nat.ofDigitChars_append, Nat.ofDigitChars_replicate_zero, Nat.mul_zero,
    Nat.ofDigitChars_ten_toDigits]

theorem places_lt_length_digits (d : Decimal) : d.places < d.digits.length := by
  rw [digits, List.length_append, List.length_replicate]
  omega

/-- A decimal is written as digits on either side of a point, and they stand for its
value. -/
theorem exists_chars_eq (d : Decimal) : ∃ whole fraction, d.chars = whole ++ '.' :: fraction ∧
    whole ≠ [] ∧ (∀ c ∈ whole, isAsciiDigit c) ∧ (∀ c ∈ fraction, isAsciiDigit c) ∧
    Nat.ofDigitChars 10 (whole ++ fraction) 0 * tenTo d.places = d.coeff * tenTo fraction.length := by
  have hlen := d.places_lt_length_digits
  have hne : d.digits.take (d.digits.length - d.places) ≠ [] := by
    rw [ne_eq, List.take_eq_nil_iff]
    rintro (h | h)
    · omega
    · simp [h] at hlen
  have hwhole : ∀ c ∈ d.digits.take (d.digits.length - d.places), isAsciiDigit c :=
    fun c hc => isAsciiDigit_of_mem_digits (List.mem_of_mem_take hc)
  by_cases hp : d.places = 0
  · refine ⟨_, ['0'], by rw [chars, if_pos hp], hne, hwhole, List.all_eq_true.mp (by decide), ?_⟩
    rw [hp, Nat.sub_zero, List.take_length, Nat.ofDigitChars_append, ofDigitChars_digits]
    simp [Nat.ofDigitChars_cons, Nat.mul_comm]
  · refine ⟨_, d.digits.drop (d.digits.length - d.places), by rw [chars, if_neg hp], hne, hwhole,
      fun c hc => isAsciiDigit_of_mem_digits (List.mem_of_mem_drop hc), ?_⟩
    rw [List.take_append_drop, ofDigitChars_digits, List.length_drop, Nat.sub_sub_self (Nat.le_of_lt hlen)]

end Decimal

/-! ### Doubles as text -/

/-- What is read as a double is finite and has no sign. -/
theorem Decimal.lt_infinityPattern_of_nearest? {d : Decimal} {x : Float} (h : d.nearest? = some x) :
    x.toBits.toNat < infinityPattern := by
  rw [nearest?, nearestFloat?] at h
  split at h
  · next hp =>
    obtain rfl := Option.some.inj h
    rwa [toNat_toBits_ofBits hp]
  · simp at h

theorem nearestFloat?_of_nearestPattern {num den : Nat} {x : Float} (hx : x.toBits.toNat < infinityPattern)
    (h : nearestPattern num den = x.toBits.toNat) : nearestFloat? num den = some x := by
  rw [nearestFloat?, h, if_pos hx, Nat.toUInt64, UInt64.ofNat_toNat, Float.ofBits_toBits]

theorem floatText_of_lt {x : Float} (h : x.toBits.toNat < infinityPattern) :
    (floatText x).toList = (shortestDecimal x.toBits.toNat).chars := by
  have hlt : x.toBits.toNat < twoTo 63 := ((lt_infinityPattern_iff x).mp h).2
  rw [floatText]
  simp only [Nat.mod_eq_of_lt hlt]
  rw [if_neg (Nat.lt_asymm h), if_neg (Nat.ne_of_lt h), if_neg (by simpa using hlt), String.toList_ofList]

/-- **A double without a sign is written as a numeral for it.** -/
theorem numeral_floatText {x : Float} (h : x.toBits.toNat < infinityPattern) :
    Numeral (floatText x).toList (.float x) := by
  have hnearest := nearestPattern_shortestDecimal x.toBits.toNat
  rw [floatText_of_lt h]
  generalize shortestDecimal x.toBits.toNat = d at *
  obtain ⟨whole, fraction, hchars, hne, hwhole, hfraction, hvalue⟩ := d.exists_chars_eq
  rw [hchars]
  refine .float hne hwhole hfraction (nearestFloat?_of_nearestPattern h ?_)
  -- both fractions over one denominator
  rw [← nearestPattern_mul (tenTo_pos d.places), Nat.mul_comm, hvalue, Nat.mul_comm, Nat.mul_comm (tenTo d.places),
    nearestPattern_mul (tenTo_pos fraction.length), hnearest]

end Pseudocode
