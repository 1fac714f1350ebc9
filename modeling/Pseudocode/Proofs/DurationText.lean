/-
# Durations read back

A duration is written as one term or as several, and reading adds the terms up again
(`Adds`). The only thing that is not exact in reading is a fraction, which is taken in double
precision. What is written needs no rounding at all: a fraction has no more digits than its
unit has zeros, so that the power of ten, a digit's share of the unit and the product are whole
numbers below `2 ^ 53` (`fractionOf_eq`). The zeros that are left out at the end of a
fraction come back as that share (`exists_fractionText`).

The sum of the terms is the number of nanoseconds without its sign, at most `2 ^ 63`. Reading
lets `2 ^ 63` itself pass if there is a minus sign, which is what the least duration needs
(`duration_reads_back`).

Key definition: `Duration.Adds`.
Key theorems: `nearestUnits_eq`, `Duration.fractionOf_eq`, `Duration.exists_fractionText`,
`Duration.adds_inUnits`, `Duration.adds_magnitudeText`, `duration_reads_back`.
-/
import Pseudocode.Duration
import Pseudocode.Proofs.ReadBack

namespace Pseudocode

/-! ### Whole numbers are doubles -/

theorem roundDiv_of_dvd {d : Nat} (hd : 0 < d) (k : Nat) : roundDiv (k * d) d = k :=
  roundDiv_eq hd (by omega) (by omega) (by omega)

/-- All that is needed of the least unit is that it is some power of two. -/
theorem exists_leastUnit_eq : ∃ e, leastUnit = twoTo e := by
  unfold leastUnit
  exact ⟨_, rfl⟩

/-- A fraction that is a whole number below `2 ^ 53` is not rounded. -/
theorem nearestUnits_eq {m den : Nat} (hden : 0 < den) (hm : m < 2 ^ 53) :
    nearestUnits (m * den) den = m * leastUnit := by
  obtain ⟨e, he⟩ := exists_leastUnit_eq
  have hquot : m * den * leastUnit / den = m * leastUnit := by
    rw [Nat.mul_right_comm, Nat.mul_div_cancel _ hden]
  simp only [nearestUnits, hquot]
  rw [he]
  -- the scale is at most `e`, so that its power of two divides the units
  have hscale : (m * twoTo e).log2 - 52 ≤ e := by
    rcases Nat.eq_zero_or_pos (m * twoTo e) with h0 | hpos
    · rw [h0, Nat.log2_zero]
      omega
    · have hlt : m * twoTo e < twoTo (53 + e) := by
        rw [twoTo_add]
        exact Nat.mul_lt_mul_of_pos_right hm (twoTo_pos e)
      have hlog := (Nat.log2_lt (Nat.ne_of_gt hpos)).mpr hlt
      omega
  generalize (m * twoTo e).log2 - 52 = scale at hscale
  obtain ⟨d, rfl⟩ := Nat.exists_eq_add_of_le' hscale
  have hunits : m * den * twoTo (d + scale) = m * twoTo d * (den * twoTo scale) := by
    rw [twoTo_add]
    ring
  rw [hunits, roundDiv_of_dvd (Nat.mul_pos hden (twoTo_pos scale)), twoTo_add, Nat.mul_assoc]

namespace Duration

theorem tenTo_lt {n : Nat} (hn : n ≤ 15) : tenTo n < 2 ^ 53 := by
  have hle : tenTo n ≤ tenTo 15 := Nat.pow_le_pow_right (by decide) hn
  have hlt : tenTo 15 < 2 ^ 53 := by decide
  omega

/-- Small powers of ten are exact. -/
theorem scaleUnits_eq : ∀ {n : Nat}, n ≤ 15 → scaleUnits n = tenTo n * leastUnit
  | 0, _ => by rw [scaleUnits, show tenTo 0 = 1 from rfl, Nat.one_mul]
  | n + 1, hn => by
    have hstep : 10 * (tenTo n * leastUnit) = tenTo (n + 1) * leastUnit := by
      rw [tenTo_add, show tenTo 1 = 10 from rfl]
      ring
    rw [scaleUnits, scaleUnits_eq (Nat.le_of_succ_le hn), hstep,
      nearestUnits_eq leastUnit_pos (tenTo_lt hn)]

/-- **A fraction with no more digits than its unit has zeros is exact.** -/
theorem fractionOf_eq {k x places : Nat} (hk : k ≤ 15) (hplaces : places ≤ k)
    (hx : x * tenTo (k - places) < 2 ^ 53) :
    fractionOf (tenTo k) x places = x * tenTo (k - places) := by
  have hpow : tenTo k = tenTo (k - places) * tenTo places := by
    rw [← tenTo_add, Nat.sub_add_cancel hplaces]
  have hshare : nearestUnits (tenTo k * leastUnit) (tenTo places * leastUnit) =
      tenTo (k - places) * leastUnit := by
    rw [hpow, Nat.mul_assoc]
    exact nearestUnits_eq (Nat.mul_pos (tenTo_pos _) leastUnit_pos) (tenTo_lt (by omega))
  have hwhole : nearestUnits x 1 = x * leastUnit := by
    have hle : x ≤ x * tenTo (k - places) := Nat.le_mul_of_pos_right x (tenTo_pos _)
    have h := nearestUnits_eq (m := x) Nat.one_pos (by omega)
    rwa [Nat.mul_one] at h
  have hproduct : x * leastUnit * (tenTo (k - places) * leastUnit) =
      x * tenTo (k - places) * (leastUnit * leastUnit) := by
    ring
  unfold fractionOf
  simp only [scaleUnits_eq (by omega : places ≤ 15), hshare, hwhole]
  rw [hproduct, nearestUnits_eq (Nat.mul_pos leastUnit_pos leastUnit_pos) hx,
    Nat.mul_div_cancel _ leastUnit_pos]

/-! ### Digits of a fraction -/

theorem le_ofDigitChars (x : Nat) : ∀ cs : List Char, x ≤ Nat.ofDigitChars 10 cs x
  | [] => by simp
  | c :: cs => by
    have h := le_ofDigitChars (10 * x + (c.toNat - '0'.toNat)) cs
    rw [Nat.ofDigitChars_cons]
    omega

/-- Digits that make a small number are all read. -/
theorem leadingFraction_eq (cs : List Char) : ∀ x places : Nat,
    Nat.ofDigitChars 10 cs x ≤ (twoTo 63 - 1) / 10 →
      leadingFraction x places cs = (Nat.ofDigitChars 10 cs x, places + cs.length) := by
  induction cs with
  | nil => exact fun x places _ => by simp [leadingFraction]
  | cons c cs ih =>
    intro x places h
    have hx := le_ofDigitChars x (c :: cs)
    rw [Nat.ofDigitChars_cons] at h hx
    have hy := le_ofDigitChars (10 * x + (c.toNat - '0'.toNat)) cs
    have hsmall : (twoTo 63 - 1) / 10 ≤ twoTo 63 := by decide
    have hgo : ¬ ((twoTo 63 - 1) / 10 < x || twoTo 63 < 10 * x + (c.toNat - '0'.toNat)) = true := by
      simp only [Bool.or_eq_true, decide_eq_true_eq]
      omega
    rw [leadingFraction, if_neg hgo, ih _ _ h, Nat.ofDigitChars_cons, List.length_cons, Nat.add_right_comm,
      Nat.add_assoc]

/-- A fraction with its point, and no point without a fraction. -/
def pointed (fraction : List Char) : List Char :=
  if fraction = [] then [] else '.' :: fraction

/-- The zeros that are left out stood at the end. -/
theorem exists_append_zeros (cs : List Char) :
    ∃ zeros, (cs.reverse.dropWhile (· = '0')).reverse ++ List.replicate zeros '0' = cs := by
  have h := congrArg List.reverse
    (List.takeWhile_append_dropWhile (p := fun c => decide (c = '0')) (l := cs.reverse))
  rw [List.reverse_append, List.reverse_reverse] at h
  refine ⟨(cs.reverse.takeWhile (· = '0')).length, ?_⟩
  have hzeros : cs.reverse.takeWhile (· = '0') =
      List.replicate (cs.reverse.takeWhile (· = '0')).length '0' :=
    List.eq_replicate_of_mem fun c hc => by simpa using List.mem_takeWhile_imp hc
  rw [hzeros, List.reverse_replicate] at h
  exact h

/-- The digits that are written of a fraction `n / 10 ^ places`. -/
structure Shown (places n : Nat) (fraction : List Char) : Prop where
  digits : ∀ c ∈ fraction, isAsciiDigit c
  length_le : fraction.length ≤ places
  value : Nat.ofDigitChars 10 fraction 0 * tenTo (places - fraction.length) = n

/-- Digits in front of zeros, which together are `places` digits of `n`. -/
theorem shown_of_append_zeros {places n zeros : Nat} {fraction : List Char}
    (hlen : (Nat.toDigits 10 n).length ≤ places) (h : fraction ++ List.replicate zeros '0' =
      List.replicate (places - (Nat.toDigits 10 n).length) '0' ++ Nat.toDigits 10 n) :
    Shown places n fraction := by
  have hplaces : fraction.length + zeros = places := by
    have hlength := congrArg List.length h
    simp only [List.length_append, List.length_replicate] at hlength
    omega
  refine ⟨fun c hc => ?_, by omega, ?_⟩
  · have hmem := List.mem_append_left (List.replicate zeros '0') hc
    rw [h] at hmem
    rcases List.mem_append.mp hmem with hzero | hdigit
    · rw [List.eq_of_mem_replicate hzero]
      decide
    · exact isAsciiDigit_of_mem_toDigits hdigit
  · have hvalue := congrArg (Nat.ofDigitChars 10 · 0) h
    simp only [Nat.ofDigitChars_append, Nat.ofDigitChars_replicate_zero, Nat.mul_zero,
      Nat.ofDigitChars_ten_toDigits] at hvalue
    rw [← hplaces, Nat.add_sub_cancel_left, Nat.mul_comm]
    exact hvalue

/-- **The digits that are written of a fraction stand for it.** -/
theorem exists_fractionText {places n : Nat} (hplaces : 0 < places) (hn : n < tenTo places) :
    ∃ fraction, fractionText places n = pointed fraction ∧ Shown places n fraction := by
  have hlen := (Nat.length_toDigits_le_iff (b := 10) (by decide) hplaces).mpr hn
  obtain ⟨zeros, hzeros⟩ := exists_append_zeros
    (List.replicate (places - (Nat.toDigits 10 n).length) '0' ++ Nat.toDigits 10 n)
  refine ⟨_, ?_, shown_of_append_zeros hlen hzeros⟩
  unfold fractionText pointed
  split <;> simp_all

/-- A number of units is written as its whole part and a fraction. -/
theorem exists_inUnits (places n : Nat) : ∃ fraction,
    inUnits places n = Nat.toDigits 10 (n / tenTo places) ++ pointed fraction ∧
      Shown places (n % tenTo places) fraction := by
  by_cases hplaces : places = 0
  · subst hplaces
    refine ⟨[], by simp [inUnits, pointed], by simp, by simp, ?_⟩
    simp [Nat.mod_one]
  · obtain ⟨fraction, htext, hshown⟩ :=
      exists_fractionText (Nat.pos_of_ne_zero hplaces) (Nat.mod_lt n (tenTo_pos places))
    refine ⟨fraction, ?_, hshown⟩
    rw [inUnits, if_neg hplaces, htext]

/-! ### Terms -/

/-- What follows a term: nothing, or the next term. -/
def AtTerm (rest : List Char) : Prop := ∀ c ∈ rest.head?, isTermDigit c

/-- A unit of `size` nanoseconds. -/
def IsUnit (unit : List Char) (size : Nat) : Prop :=
  unit ≠ [] ∧ unit.all (!isTermDigit ·) ∧ unit? (String.ofList unit) = some size ∧ 0 < size

instance (unit : List Char) (size : Nat) : Decidable (IsUnit unit size) :=
  inferInstanceAs (Decidable (_ ∧ _ ∧ _ ∧ _))

theorem isTermDigit_of_isAsciiDigit {c : Char} (h : isAsciiDigit c) : isTermDigit c := by
  rw [isTermDigit, h, Bool.or_true]

theorem IsUnit.head {unit : List Char} {size : Nat} (h : IsUnit unit size) (rest : List Char) :
    ∀ c ∈ (unit ++ rest).head?, isTermDigit c = false := by
  intro c hc
  obtain ⟨hne, hchars, -⟩ := h
  obtain ⟨u, us, rfl⟩ := List.exists_cons_of_ne_nil hne
  obtain rfl : u = c := by simpa using hc
  simpa using List.all_eq_true.mp hchars u List.mem_cons_self

/-- A fraction ends where the unit starts. -/
theorem splitFraction_eq {fraction rest : List Char} (hfraction : ∀ c ∈ fraction, isAsciiDigit c)
    (hrest : ∀ c ∈ rest.head?, isTermDigit c = false) :
    splitFraction (pointed fraction ++ rest) = (fraction, rest) := by
  have hdigit : ∀ c ∈ rest.head?, ¬ isAsciiDigit c := fun c hc h => by
    simpa [isTermDigit_of_isAsciiDigit h] using hrest c hc
  unfold pointed
  split
  · next hnil =>
    subst hnil
    unfold splitFraction
    split
    · next cs heq =>
      rw [List.nil_append] at heq
      have h := hrest '.' (by rw [heq]; rfl)
      simp [isTermDigit] at h
    · rfl
  · obtain ⟨htake, hdrop⟩ := takeWhile_dropWhile_append hfraction hdigit
    rw [List.cons_append, splitFraction, htake, hdrop]

/-- **A written term is split off whole.** -/
theorem splitTerm_eq {whole fraction unit rest : List Char} {size : Nat}
    (hwhole : ∀ c ∈ whole, isAsciiDigit c) (hfraction : ∀ c ∈ fraction, isAsciiDigit c)
    (hunit : IsUnit unit size) (hrest : AtTerm rest) :
    splitTerm (whole ++ (pointed fraction ++ (unit ++ rest))) = (⟨whole, fraction, unit⟩, rest) := by
  have hhead := hunit.head rest
  have hpoint : ∀ c ∈ (pointed fraction ++ (unit ++ rest)).head?, ¬ isAsciiDigit c := by
    unfold pointed
    split
    · exact fun c hc h => by simpa [isTermDigit_of_isAsciiDigit h] using hhead c hc
    · intro c hc
      obtain rfl : '.' = c := by simpa using hc
      decide
  have hstop : ∀ c ∈ rest.head?, ¬ (!isTermDigit c) = true := fun c hc => by simp [hrest c hc]
  obtain ⟨htake, hdrop⟩ := takeWhile_dropWhile_append hwhole hpoint
  obtain ⟨htakeUnit, hdropUnit⟩ := takeWhile_dropWhile_append (List.all_eq_true.mp hunit.2.1) hstop
  simp only [splitTerm, htake, hdrop, splitFraction_eq hfraction hhead, htakeUnit, hdropUnit]

/-- The nanoseconds of a term whose fraction is read as `x / 10 ^ places`. -/
theorem nanoseconds_eq {orig : String} {t : Term} {size x places n : Nat} (hwhole : t.whole ≠ [])
    (hunit : IsUnit t.unit size) (hfraction : leadingFraction 0 0 t.fraction = (x, places))
    (hn : Nat.ofDigitChars 10 t.whole 0 * size + (if x = 0 then 0 else fractionOf size x places) = n)
    (hle : n ≤ twoTo 63) : t.nanoseconds orig = .ok n := by
  obtain ⟨hne, -, hsize, hpos⟩ := hunit
  have hmul : Nat.ofDigitChars 10 t.whole 0 * size ≤ twoTo 63 := by omega
  have hdiv := (Nat.le_div_iff_mul_le hpos).mpr hmul
  have hfits := Nat.le_trans (Nat.le_mul_of_pos_right _ hpos) hmul
  unfold Term.nanoseconds
  simp only [hsize, hfraction, hn]
  rw [if_neg (by simp [hwhole, hfits]), if_neg (by simp [hne]), if_neg (by simp [hdiv, hle])]

/-! ### Sums -/

/-- Reading `cs` in front of further terms adds `n` to the sum. -/
structure Adds (cs : List Char) (n : Nat) : Prop where
  starts : ∃ c ∈ cs.head?, isAsciiDigit c
  reads : ∀ (orig : String) (sum : Nat) (rest : List Char), AtTerm rest → sum + n ≤ twoTo 63 →
    sumTerms orig sum (cs ++ rest) = sumTerms orig (sum + n) rest

theorem sumTerms_of_splitTerm {orig : String} {sum n : Nat} {c : Char} {cs rest : List Char} {t : Term}
    (hc : isTermDigit c) (hsplit : splitTerm (c :: cs) = (t, rest)) (hn : t.nanoseconds orig = .ok n)
    (hle : sum + n ≤ twoTo 63) : sumTerms orig sum (c :: cs) = sumTerms orig (sum + n) rest := by
  have hmod : (sum + n) % twoTo 64 = sum + n :=
    Nat.mod_eq_of_lt (Nat.lt_of_le_of_lt hle (by decide))
  rw [sumTerms, if_neg (by simp [hc])]
  split
  · next e he => simp [hsplit, hn] at he
  · next m hm =>
    obtain rfl : n = m := by simpa [hsplit, hn] using hm
    simp only [hmod, hsplit]
    rw [if_neg (by omega)]

theorem Adds.append {cs cs' : List Char} {n n' : Nat} (h : Adds cs n) (h' : Adds cs' n') :
    Adds (cs ++ cs') (n + n') := by
  obtain ⟨c, hc, hdigit⟩ := h.starts
  obtain ⟨c', hc', hdigit'⟩ := h'.starts
  refine ⟨⟨c, ?_, hdigit⟩, fun orig sum rest hrest hle => ?_⟩
  · rw [List.head?_append, Option.mem_def.mp hc]
    rfl
  · have hnext : AtTerm (cs' ++ rest) := by
      intro x hx
      rw [List.head?_append, Option.mem_def.mp hc'] at hx
      obtain rfl : c' = x := by simpa using hx
      exact isTermDigit_of_isAsciiDigit hdigit'
    rw [List.append_assoc, h.reads orig sum _ hnext (by omega), h'.reads orig _ rest hrest (by omega),
      Nat.add_assoc]

/-- A term adds its whole part and its fraction. -/
theorem adds_term (whole : Nat) {fraction unit : List Char} {size x places : Nat}
    (hfraction : ∀ c ∈ fraction, isAsciiDigit c) (hunit : IsUnit unit size)
    (hread : leadingFraction 0 0 fraction = (x, places)) :
    Adds (Nat.toDigits 10 whole ++ pointed fraction ++ unit)
      (whole * size + if x = 0 then 0 else fractionOf size x places) := by
  obtain ⟨c, cs, hcs⟩ := List.exists_cons_of_ne_nil (Nat.toDigits_ne_nil (n := whole) (b := 10))
  have hdigits : ∀ d ∈ Nat.toDigits 10 whole, isAsciiDigit d := fun d => isAsciiDigit_of_mem_toDigits
  have hc : isAsciiDigit c := hdigits c (by rw [hcs]; exact List.mem_cons_self)
  refine ⟨⟨c, by rw [hcs]; rfl, hc⟩, fun orig sum rest hrest hle => ?_⟩
  have hsplit := splitTerm_eq hdigits hfraction hunit hrest
  have hn : Term.nanoseconds orig ⟨Nat.toDigits 10 whole, fraction, unit⟩ =
      .ok (whole * size + if x = 0 then 0 else fractionOf size x places) :=
    nanoseconds_eq Nat.toDigits_ne_nil hunit hread (by rw [Nat.ofDigitChars_ten_toDigits]) (by omega)
  rw [List.append_assoc, List.append_assoc]
  rw [hcs] at hsplit hn ⊢
  exact sumTerms_of_splitTerm (isTermDigit_of_isAsciiDigit hc) hsplit hn hle

/-- A whole number of units. -/
theorem adds_whole {unit : List Char} {size : Nat} (hunit : IsUnit unit size) (whole : Nat) :
    Adds (Nat.toDigits 10 whole ++ unit) (whole * size) := by
  have h := adds_term whole (List.forall_mem_nil _) hunit rfl
  simpa [pointed] using h

/-- **A number of nanoseconds in a decimal unit adds that number.** -/
theorem adds_inUnits {places : Nat} {unit : List Char} (hplaces : places ≤ 9)
    (hunit : IsUnit unit (tenTo places)) (n : Nat) : Adds (inUnits places n ++ unit) n := by
  obtain ⟨fraction, htext, hdigits, hlen, hvalue⟩ := exists_inUnits places n
  have hlt : n % tenTo places < tenTo places := Nat.mod_lt n (tenTo_pos places)
  have hten : tenTo places ≤ tenTo 9 := Nat.pow_le_pow_right (by decide) hplaces
  have hsmall : tenTo 9 ≤ (twoTo 63 - 1) / 10 ∧ tenTo 9 < 2 ^ 53 := by decide
  have hx := Nat.le_mul_of_pos_right (Nat.ofDigitChars 10 fraction 0) (tenTo_pos (places - fraction.length))
  have h := adds_term (n / tenTo places) hdigits hunit (leadingFraction_eq fraction 0 0 (by omega))
  have hfraction : (if Nat.ofDigitChars 10 fraction 0 = 0 then 0
      else fractionOf (tenTo places) (Nat.ofDigitChars 10 fraction 0) (0 + fraction.length)) =
        n % tenTo places := by
    split
    · next h0 => rw [← hvalue, h0, Nat.zero_mul]
    · rw [Nat.zero_add, fractionOf_eq (by omega) hlen (by omega), hvalue]
  rw [hfraction, Nat.div_add_mod'] at h
  rw [htext]
  exact h

/-! ### Durations -/

/-- The units below a second: the power of ten and the name of each. -/
def smallUnits : List (Nat × List Char) := [(0, ['n', 's']), (3, ['µ', 's']), (6, ['m', 's'])]

theorem isUnit_of_mem_smallUnits : ∀ u ∈ smallUnits, u.1 ≤ 9 ∧ IsUnit u.2 (tenTo u.1) := by
  unfold smallUnits
  simp only [List.forall_mem_cons]
  decide +kernel

/-- What is below a second is written in the largest unit that it reaches. -/
theorem exists_smallUnit {n : Nat} (hn : n ≠ 0) (hlt : n < tenTo 9) : ∃ u ∈ smallUnits,
    tenTo u.1 ≤ n ∧ n < tenTo (u.1 + 3) ∧ magnitudeText n = inUnits u.1 n ++ u.2 := by
  have hten : tenTo 0 = 1 ∧ tenTo 3 = 1000 ∧ tenTo 6 = 1000000 ∧ tenTo 9 = 1000000000 := by decide
  unfold magnitudeText
  rw [if_neg hn]
  split
  · exact ⟨(0, ['n', 's']), by simp [smallUnits], by dsimp only; omega, by dsimp only; omega, rfl⟩
  split
  · exact ⟨(3, ['µ', 's']), by simp [smallUnits], by dsimp only; omega, by dsimp only; omega, rfl⟩
  · exact ⟨(6, ['m', 's']), by simp [smallUnits], by dsimp only; omega, by dsimp only; omega, rfl⟩

/-- **The text of a number of nanoseconds adds it up.** -/
theorem adds_magnitudeText (n : Nat) : Adds (magnitudeText n) n := by
  have hseconds (k : Nat) : Adds (inUnits 9 k ++ ['s']) k :=
    adds_inUnits (by decide) (by decide +kernel) k
  have hminutes (k : Nat) : Adds (Nat.toDigits 10 k ++ ['m']) (k * 60000000000) :=
    adds_whole (by decide +kernel) k
  have hhours (k : Nat) : Adds (Nat.toDigits 10 k ++ ['h']) (k * 3600000000000) :=
    adds_whole (by decide +kernel) k
  rcases (by omega : n = 0 ∨ (n ≠ 0 ∧ n < 1000000000) ∨ 1000000000 ≤ n) with rfl | ⟨hn, hlt⟩ | hge
  · exact hseconds 0
  · obtain ⟨u, hu, -, -, htext⟩ := exists_smallUnit hn hlt
    obtain ⟨hplaces, hunit⟩ := isUnit_of_mem_smallUnits u hu
    rw [htext]
    exact adds_inUnits hplaces hunit n
  -- from one second on: seconds, and in front of them minutes and hours that are not zero
  have hrest : Adds
      (Nat.toDigits 10 (n / 60000000000 % 60) ++ 'm' :: (inUnits 9 (n % 60000000000) ++ ['s']))
      (n / 60000000000 % 60 * 60000000000 + n % 60000000000) := by
    have h := (hminutes (n / 60000000000 % 60)).append (hseconds (n % 60000000000))
    rwa [List.append_assoc, List.singleton_append] at h
  unfold magnitudeText
  rw [if_neg (by omega), if_neg (by omega), if_neg (by omega), if_neg (by omega)]
  dsimp only
  split
  · have h := hseconds (n % 60000000000)
    rwa [(by omega : n % 60000000000 = n)] at h ⊢
  split
  · rwa [(by omega : n / 60000000000 % 60 * 60000000000 + n % 60000000000 = n)] at hrest
  · have h := (hhours (n / 60000000000 / 60)).append hrest
    rwa [List.append_assoc, List.singleton_append, (by omega : n / 60000000000 / 60 * 3600000000000 +
      (n / 60000000000 % 60 * 60000000000 + n % 60000000000) = n)] at h

theorem mem_magnitudeText (n : Nat) : 's' ∈ magnitudeText n := by
  unfold magnitudeText
  dsimp only
  split_ifs <;> simp

/-- A text that adds up is read, with a sign or without. -/
theorem ofText_eq {cs : List Char} {n : Nat} (h : Adds cs n) (hs : 's' ∈ cs) (hn : n ≤ twoTo 63) :
    ofText (String.ofList ('-' :: cs)) = .ok ⟨Int64.ofInt (-n)⟩ ∧
      (n < twoTo 63 → ofText (String.ofList cs) = .ok ⟨Int64.ofInt n⟩) := by
  have hsum (orig : String) : sumTerms orig 0 cs = .ok n := by
    have hreads := h.reads orig 0 [] (by simp [AtTerm]) (by omega)
    rwa [List.append_nil, Nat.zero_add, sumTerms] at hreads
  have hzero : cs ≠ ['0'] := by
    rintro rfl
    simp at hs
  have hsign : splitMinus cs = (false, cs) := by
    obtain ⟨c, hc, hdigit⟩ := h.starts
    obtain ⟨tail, rfl⟩ := List.head?_eq_some_iff.mp hc
    unfold splitMinus
    split
    · simp_all [isAsciiDigit]
    · simp_all [isAsciiDigit]
    · rfl
  have hne : ¬ cs.isEmpty = true := by
    rw [List.isEmpty_iff]
    exact List.ne_nil_of_mem hs
  constructor
  · simp only [ofText, String.toList_ofList, splitMinus]
    rw [if_neg hzero, if_neg hne, hsum]
    rfl
  · intro hlt
    simp only [ofText, String.toList_ofList, hsign]
    rw [if_neg hzero, if_neg hne, hsum]
    simp only [Bool.false_eq_true, if_false]
    rw [if_neg (by omega)]

/-- **What a duration is written as is read as that duration.** -/
theorem ofText_text (d : Duration) : ofText d.text = .ok d := by
  have hlow := d.nanoseconds.le_toInt
  have hhigh := d.nanoseconds.toInt_lt
  have htwo : twoTo 63 = 2 ^ 63 := rfl
  obtain ⟨hminus, hplain⟩ := ofText_eq (adds_magnitudeText d.nanoseconds.toInt.natAbs) (mem_magnitudeText _)
    (by omega)
  simp only [text]
  split
  · next hneg =>
    have habs : -(d.nanoseconds.toInt.natAbs : Int) = d.nanoseconds.toInt := by omega
    rw [hminus, habs, Int64.ofInt_toInt]
  · next hneg =>
    have habs : (d.nanoseconds.toInt.natAbs : Int) = d.nanoseconds.toInt := by omega
    rw [hplain (by omega), habs, Int64.ofInt_toInt]

/-- The text of a duration below a second: a sign, a whole number of units, a fraction
and the unit. -/
theorem exists_text_eq {d : Duration} (hne : d.nanoseconds.toInt ≠ 0)
    (hlt : d.nanoseconds.toInt.natAbs < tenTo 9) : ∃ u ∈ smallUnits, ∃ fraction,
      tenTo u.1 ≤ d.nanoseconds.toInt.natAbs ∧ d.nanoseconds.toInt.natAbs < tenTo (u.1 + 3) ∧
      Shown u.1 (d.nanoseconds.toInt.natAbs % tenTo u.1) fraction ∧
      d.text.toList = (if d.nanoseconds.toInt < 0 then ['-'] else []) ++
        Nat.toDigits 10 (d.nanoseconds.toInt.natAbs / tenTo u.1) ++ pointed fraction ++ u.2 := by
  obtain ⟨u, hu, hge, hbelow, htext⟩ := exists_smallUnit (by omega) hlt
  obtain ⟨fraction, hunits, hshown⟩ := exists_inUnits u.1 d.nanoseconds.toInt.natAbs
  refine ⟨u, hu, fraction, hge, hbelow, hshown, ?_⟩
  simp only [text, String.toList_ofList, htext, hunits]
  split <;> simp

end Duration

/-- **Durations round-trip through their text.** Every number of nanoseconds that fits 64
bits is written as a text that is read as the same number, so no two durations have one
text, and a text that is read and written again does not change any more. Zero is
`0s`. What is below a second is written in nanoseconds, microseconds or milliseconds, in the
largest of the three that it reaches, with the rest as a fraction. -/
theorem duration_reads_back :
    (∀ d : Duration, Duration.ofText d.text = .ok d) ∧
    Function.Injective Duration.text ∧
    (∀ s t, (Duration.ofText s).map Duration.text = .ok t →
      (Duration.ofText t).map Duration.text = .ok t) ∧
    Duration.text ⟨0⟩ = "0s" ∧
    (∀ d : Duration, d.nanoseconds.toInt ≠ 0 → d.nanoseconds.toInt.natAbs < tenTo 9 →
      ∃ u ∈ Duration.smallUnits, ∃ fraction,
        tenTo u.1 ≤ d.nanoseconds.toInt.natAbs ∧ d.nanoseconds.toInt.natAbs < tenTo (u.1 + 3) ∧
        Duration.Shown u.1 (d.nanoseconds.toInt.natAbs % tenTo u.1) fraction ∧
        d.text.toList = (if d.nanoseconds.toInt < 0 then ['-'] else []) ++
          Nat.toDigits 10 (d.nanoseconds.toInt.natAbs / tenTo u.1) ++ Duration.pointed fraction ++ u.2) := by
  refine ⟨Duration.ofText_text, fun d d' h => ?_, fun s t h => ?_, by decide +kernel,
    fun d => Duration.exists_text_eq⟩
  · have hread := Duration.ofText_text d
    rw [h, Duration.ofText_text d'] at hread
    exact (Except.ok.inj hread).symm
  · cases hs : Duration.ofText s with
    | error e => simp [hs, Except.map] at h
    | ok d =>
      obtain rfl : d.text = t := by simpa [hs, Except.map] using h
      rw [Duration.ofText_text, Except.map]

example : Duration.text ⟨Int64.minValue⟩ = "-2562047h47m16.854775808s" := by
  decide +kernel

example : Duration.text ⟨-1500⟩ = "-1.5µs" := by
  decide +kernel

end Pseudocode
