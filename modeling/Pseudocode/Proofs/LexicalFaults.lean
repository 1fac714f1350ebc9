/-
# What is wrong with a lexeme

The characters that are taken from the front of a text may be no lexeme. There are five
ways to get one wrong (`Misspelt`): a letter is glued to a number, digits and points are no
number, a text has no closing quote, an exclamation mark has no equals sign after it, or
no lexeme starts with the character at all. Taking one lexeme from the front of a text gives
a fault exactly by these rules (`lexemeAt_eq_fault_iff`), as it gives a token exactly by
the lexical rules.

The fault says where it is told, at the start of the lexeme or at the character after it, and
names a character. A glued letter and what follows an exclamation mark are told after the
lexeme, all else at its start; a number names no character.

Key definitions: `NumberRun`, `Unclosed`, `Misspelt`.
Key theorems: `quotedRun_eq_none_iff`, `numberValue_eq_error_iff`, `lexemeAt_eq_fault_iff`.
-/
import Pseudocode.Proofs.LexicalRules

namespace Pseudocode

/-- Digits and points, the first of them a digit. -/
structure NumberRun (run : List Char) : Prop where
  head : ∃ c ∈ run.head?, isAsciiDigit c
  all : ∀ c ∈ run, isNumberChar c

/-- What is wrong with digits and points that are no number. -/
def numberFault (run : List Char) : ScanFault := if '.' ∈ run then .badFloat else .badInt

/-- No quote in what follows an opening one closes the text: each of them is escaped. -/
def Unclosed (cs : List Char) : Prop :=
  ∀ body text rest, Quoted body text → cs ≠ body ++ '\'' :: rest

/-- The characters `l` in front of `rest` are taken for one lexeme and are none, and what they
mean is a fault. -/
inductive Misspelt : List Char → List Char → Meaning → Prop where
  /-- A letter is glued to a number, whatever the number is. -/
  | glued {run rest : List Char} {c : Char} : NumberRun run → isLetter c →
      Misspelt run (c :: rest) (.faultAfter .unexpectedChar c.toNat)
  /-- Digits and points that end there are no number. -/
  | number {run rest : List Char} : NumberRun run → (∀ d ∈ rest.head?, ¬ isNumberChar d ∧ ¬ isLetter d) →
      (∀ v, ¬ Numeral run v) → Misspelt run rest (.faultAtStart (numberFault run) 0)
  /-- A text is not closed. -/
  | text {cs : List Char} : Unclosed cs →
      Misspelt ('\'' :: cs) [] (.faultAtStart .unexpectedEnd '\''.toNat)
  /-- An exclamation mark is the last character. -/
  | lastMark : Misspelt ['!'] [] (.faultAtStart .unexpectedEnd '!'.toNat)
  /-- Another character than the equals sign follows an exclamation mark. -/
  | mark {c : Char} {rest : List Char} : c ≠ '=' →
      Misspelt ['!'] (c :: rest) (.faultAfter .unexpectedChar c.toNat)
  /-- No lexeme starts with the character. -/
  | stray {c : Char} {rest : List Char} : c ≠ '!' → (∀ l k v n, ¬ Spells (c :: l) k v n) →
      Misspelt [c] rest (.faultAtStart .unexpectedChar c.toNat)

/-! ### Numbers -/

theorem not_isNumberChar_of_isLetter {c : Char} (h : isLetter c) : ¬ isNumberChar c := by
  intro hc
  simp only [isNumberChar, Bool.or_eq_true, beq_iff_eq] at hc
  obtain hdigit | rfl := hc
  · simp [not_isLetter_of_isAsciiDigit hdigit] at h
  · exact absurd h (by decide)

theorem numberFault_cases (run : List Char) : numberFault run = .badInt ∨ numberFault run = .badFloat := by
  unfold numberFault
  split
  · exact .inr rfl
  · exact .inl rfl

/-- Digits and points have no value exactly if they are no numeral. -/
theorem numberValue_eq_error_iff {run : List Char} (hrun : NumberRun run) {fault : ScanFault} :
    numberValue run = .error fault ↔ (∀ v, ¬ Numeral run v) ∧ fault = numberFault run := by
  have hvalue : ∀ {v}, numberValue run = .ok v ↔ Numeral run v := numberValue_eq_ok_iff hrun.all hrun.head
  have hfault : ∀ {fault}, numberValue run = .error fault → fault = numberFault run := by
    intro fault h
    simp only [numberValue, List.contains_iff_mem] at h
    simp only [numberFault]
    split at h
    · next hpoint =>
      rw [if_pos hpoint]
      split at h
      · simp at h
      · exact (Except.error.inj h).symm
    · next hpoint =>
      rw [if_neg hpoint]
      split at h
      · simp at h
      · exact (Except.error.inj h).symm
  constructor
  · intro h
    refine ⟨fun v hv => ?_, hfault h⟩
    simp [hvalue.mpr hv] at h
  · rintro ⟨hnone, rfl⟩
    cases h : numberValue run with
    | ok v => exact absurd (hvalue.mp h) (hnone v)
    | error fault => rw [hfault h]

theorem lexemeAt_number {c : Char} {cs rest : List Char} (hrun : NumberRun (c :: cs))
    (hrest : ∀ d ∈ rest.head?, ¬ isNumberChar d) :
    lexemeAt c (cs ++ rest) = ⟨numberMeaning (c :: cs) rest.head?, c :: cs, rest⟩ := by
  have hc : isAsciiDigit c := by simpa using hrun.head
  obtain ⟨htake, hdrop⟩ := takeWhile_dropWhile_append hrun.all hrest
  rw [lexemeAt, if_neg (by simp [not_isLetter_of_isAsciiDigit hc]), if_pos hc, numberAt,
    ← List.cons_append, htake, hdrop]

/-! ### Texts -/

theorem lexemeAt_quote (cs : List Char) : lexemeAt '\'' cs = textAt cs := by
  rw [lexemeAt, if_neg (by decide), if_neg (by decide), if_pos rfl]

/-- A text that is not closed goes to the end. -/
theorem quotedRun_rest_eq_nil (cs : List Char) : (quotedRun cs).2.1 = none → (quotedRun cs).2.2 = [] := by
  fun_induction quotedRun cs <;> simp_all

theorem quotedRun_eq_none_iff {cs : List Char} : quotedRun cs = (cs, none, []) ↔ Unclosed cs := by
  constructor
  · rintro h body text rest hq rfl
    simp [hq.quotedRun_eq] at h
  · intro h
    have happ := quotedRun_append cs
    rcases hrun : quotedRun cs with ⟨run, _ | text, rest⟩
    · have hrest := quotedRun_rest_eq_nil cs (by rw [hrun])
      rw [hrun] at happ hrest
      obtain rfl : rest = [] := hrest
      obtain rfl : run = cs := by simpa using happ
      rfl
    · obtain ⟨body, -, hq, hcs⟩ := quotedRun_eq_iff.mp hrun
      exact absurd hcs (h body text rest hq)

/-! ### Operators -/

theorem lexemeAt_exclamation (cs : List Char) : lexemeAt '!' cs = symbolAt '!' cs :=
  lexemeAt_symbol ⟨by decide, by decide, by decide⟩ cs

theorem maximal_nil (l : List Char) : Maximal l [] :=
  ⟨by simp, by simp, by simp, by simp⟩

/-- An operator of two characters starts with one of one character or with an exclamation
mark. -/
theorem singleSymbol?_of_doubleSymbol? {c d : Char} {k : TokenKind} (h : doubleSymbol? c d = some k)
    (hc : c ≠ '!') : ∃ k', singleSymbol? c = some k' := by
  unfold doubleSymbol? at h
  split at h
  · exact ⟨_, rfl⟩
  · exact ⟨_, rfl⟩
  · exact ⟨_, rfl⟩
  · exact absurd rfl hc
  · simp at h

theorem wordMeaning_eq_token (w : String) : ∃ k v n, wordMeaning w = .token k v n := by
  unfold wordMeaning
  split
  · exact ⟨_, _, _, rfl⟩
  · exact ⟨_, _, _, rfl⟩
  · exact ⟨_, _, _, rfl⟩

theorem spells_digit {c : Char} (hc : isAsciiDigit c) : ∃ v, Spells [c] .literal v "" := by
  have hlt : Nat.ofDigitChars 10 [c] 0 < twoTo 63 := by
    have hle := (isAsciiDigit_iff.mp hc).2
    have hpow : twoTo 63 = 2 ^ 63 := rfl
    simp only [Nat.ofDigitChars_cons, Nat.ofDigitChars_nil, Nat.mul_zero, Nat.zero_add]
    have hzero : '0'.toNat = 48 := rfl
    omega
  exact ⟨_, .number (.int (by simp) (by simpa using hc) hlt)⟩

/-- A character that no lexeme starts with is no letter, digit or quote and no operator. -/
theorem startsSymbol_of_stray {c : Char} (h : ∀ l k v n, ¬ Spells (c :: l) k v n) :
    StartsSymbol c ∧ singleSymbol? c = none := by
  refine ⟨⟨?_, ?_, ?_⟩, ?_⟩
  · rw [Bool.eq_false_iff]
    intro hc
    obtain ⟨k, v, n, hw⟩ := wordMeaning_eq_token (String.ofList [c])
    exact h [] k v n (spells_word hc (by simp) hw)
  · rw [Bool.eq_false_iff]
    intro hc
    obtain ⟨v, hv⟩ := spells_digit hc
    exact h [] _ v _ hv
  · rintro rfl
    exact h _ _ _ _ (.text .nil)
  · cases hk : singleSymbol? c with
    | none => rfl
    | some k => exact absurd (singleSymbol?_spells hk) (h [] k _ _)

theorem symbolAt_stray {c : Char} (hc : singleSymbol? c = none) (hmark : c ≠ '!') (cs : List Char) :
    symbolAt c cs = ⟨.faultAtStart .unexpectedChar c.toNat, [c], cs⟩ := by
  have hsingle : ∀ cs, singleMeaning c cs = .faultAtStart .unexpectedChar c.toNat := by
    intro cs
    simp only [singleMeaning, hc, if_neg hmark]
  cases cs with
  | nil => rw [symbolAt, hsingle]
  | cons d ds =>
    have hdouble : doubleSymbol? c d = none := by
      cases hd : doubleSymbol? c d with
      | none => rfl
      | some k =>
        obtain ⟨k', hk'⟩ := singleSymbol?_of_doubleSymbol? hd hmark
        simp [hc] at hk'
    rw [symbolAt, hdouble]
    simp only [hsingle]

/-- No lexeme starts with a character that is no letter, digit or quote and no operator. -/
theorem stray_of_startsSymbol {c : Char} (hc : StartsSymbol c) (hsingle : singleSymbol? c = none)
    (hmark : c ≠ '!') (l : List Char) (k : TokenKind) (v : Value) (n : String) : ¬ Spells (c :: l) k v n := by
  intro h
  obtain ⟨c', cs, hcs, hlex⟩ := h.lexemeAt_eq (maximal_nil _)
  obtain ⟨rfl, rfl⟩ := List.cons.inj hcs
  rw [List.append_nil, lexemeAt_symbol hc, symbolAt_stray hsingle hmark] at hlex
  simp at hlex

theorem symbolAt_mark {c : Char} (hc : c ≠ '=') (cs : List Char) :
    symbolAt '!' (c :: cs) = ⟨.faultAfter .unexpectedChar c.toNat, ['!'], c :: cs⟩ := by
  have hdouble : doubleSymbol? '!' c = none := by simp [doubleSymbol?, hc]
  rw [symbolAt, hdouble]
  rfl

/-! ### The fault in front -/

/-- What is misspelt is what is taken from the front of a text, with its fault. -/
theorem Misspelt.lexemeAt_eq {l rest : List Char} {m : Meaning} (h : Misspelt l rest m) :
    ∃ c cs, l = c :: cs ∧ lexemeAt c (cs ++ rest) = ⟨m, l, rest⟩ := by
  cases h with
  | @glued run rest d hrun hd =>
    obtain ⟨c, hhead, -⟩ := hrun.head
    obtain ⟨cs, rfl⟩ := List.head?_eq_some_iff.mp hhead
    have hstop : ∀ e ∈ (d :: rest).head?, ¬ isNumberChar e := by
      simpa using not_isNumberChar_of_isLetter hd
    have hletter : (some d).filter isLetter = some d := by simp [Option.filter, hd]
    refine ⟨c, cs, rfl, ?_⟩
    rw [lexemeAt_number hrun hstop, numberMeaning, List.head?_cons, hletter]
  | number hrun hrest hnone =>
    obtain ⟨c, hhead, -⟩ := hrun.head
    obtain ⟨cs, rfl⟩ := List.head?_eq_some_iff.mp hhead
    have hletter : rest.head?.filter isLetter = none := by
      rw [Option.filter_eq_none_iff]
      exact fun d hd => (hrest d hd).2
    have hvalue := (numberValue_eq_error_iff hrun).mpr ⟨hnone, rfl⟩
    refine ⟨c, cs, rfl, ?_⟩
    rw [lexemeAt_number hrun fun d hd => (hrest d hd).1, numberMeaning, hletter, hvalue]
  | @text cs hcs =>
    refine ⟨'\'', cs, rfl, ?_⟩
    rw [List.append_nil, lexemeAt_quote, textAt, quotedRun_eq_none_iff.mpr hcs]
  | lastMark => exact ⟨'!', [], rfl, lexemeAt_exclamation []⟩
  | @mark c rest hc => exact ⟨'!', [], rfl, by rw [List.nil_append, lexemeAt_exclamation, symbolAt_mark hc]⟩
  | @stray c rest hmark hnone =>
    obtain ⟨hc, hsingle⟩ := startsSymbol_of_stray hnone
    exact ⟨c, [], rfl, by rw [List.nil_append, lexemeAt_symbol hc, symbolAt_stray hsingle hmark]⟩

section
variable {c : Char} {cs l rest : List Char} {m : Meaning}

theorem misspelt_of_numberAt (hc : isAsciiDigit c) (hm : ∀ k v n, m ≠ .token k v n)
    (h : numberAt (c :: cs) = ⟨m, l, rest⟩) : Misspelt l rest m := by
  rw [numberAt, Lexeme.mk.injEq] at h
  obtain ⟨rfl, rfl, rfl⟩ := h
  have hcons : (c :: cs).takeWhile isNumberChar = c :: cs.takeWhile isNumberChar :=
    List.takeWhile_cons_of_pos (isNumberChar_of_isAsciiDigit hc)
  have hrun : NumberRun ((c :: cs).takeWhile isNumberChar) :=
    ⟨⟨c, by rw [hcons]; rfl, hc⟩, fun d hd => List.mem_takeWhile_imp hd⟩
  have hstop : ∀ d ∈ ((c :: cs).dropWhile isNumberChar).head?, ¬ isNumberChar d := head?_dropWhile
  generalize (c :: cs).takeWhile isNumberChar = run at hrun hm
  generalize (c :: cs).dropWhile isNumberChar = rest at hstop hm
  unfold numberMeaning at hm ⊢
  split
  · next d hd =>
    obtain ⟨hhead, hletter⟩ := Option.filter_eq_some_iff.mp hd
    obtain ⟨rest', rfl⟩ := List.head?_eq_some_iff.mp hhead
    exact .glued hrun hletter
  · next hletter =>
    rw [hletter] at hm
    rw [Option.filter_eq_none_iff] at hletter
    cases hvalue : numberValue run with
    | ok v =>
      rw [hvalue] at hm
      exact absurd rfl (hm _ _ _)
    | error fault =>
      obtain ⟨hnone, rfl⟩ := (numberValue_eq_error_iff hrun).mp hvalue
      exact .number hrun (fun d hd => ⟨hstop d hd, hletter d hd⟩) hnone

theorem misspelt_of_textAt (hm : ∀ k v n, m ≠ .token k v n) (h : textAt cs = ⟨m, l, rest⟩) :
    Misspelt l rest m := by
  rcases hrun : quotedRun cs with ⟨run, _ | text, rest'⟩
  · have hnil := quotedRun_rest_eq_nil cs (by rw [hrun])
    have happ := quotedRun_append cs
    rw [hrun] at hnil happ
    obtain rfl : rest' = [] := hnil
    obtain rfl : run = cs := by simpa using happ
    simp only [textAt, hrun, Lexeme.mk.injEq] at h
    obtain ⟨rfl, rfl, rfl⟩ := h
    exact .text (quotedRun_eq_none_iff.mp hrun)
  · simp only [textAt, hrun, Lexeme.mk.injEq] at h
    exact absurd h.1.symm (hm _ _ _)

theorem misspelt_of_symbolAt (hc : StartsSymbol c) (hm : ∀ k v n, m ≠ .token k v n)
    (h : symbolAt c cs = ⟨m, l, rest⟩) : Misspelt l rest m := by
  by_cases hmark : c = '!'
  · subst hmark
    cases cs with
    | nil =>
      obtain ⟨rfl, rfl, rfl⟩ := Lexeme.mk.inj h
      exact .lastMark
    | cons d ds =>
      by_cases hd : d = '='
      · subst hd
        obtain ⟨rfl, -, -⟩ := Lexeme.mk.inj h
        exact absurd rfl (hm _ _ _)
      · rw [symbolAt_mark hd] at h
        obtain ⟨rfl, rfl, rfl⟩ := Lexeme.mk.inj h
        exact .mark hd
  cases hsingle : singleSymbol? c with
  | none =>
    rw [symbolAt_stray hsingle hmark] at h
    obtain ⟨rfl, rfl, rfl⟩ := Lexeme.mk.inj h
    exact .stray hmark (stray_of_startsSymbol hc hsingle hmark)
  -- what starts with an operator of one character is an operator
  | some k =>
    have hplain : ∀ cs, singleMeaning c cs = .plain k := fun cs => by simp only [singleMeaning, hsingle]
    cases cs with
    | nil =>
      rw [symbolAt, hplain] at h
      exact absurd (Lexeme.mk.inj h).1.symm (hm _ _ _)
    | cons d ds =>
      rw [symbolAt, hplain] at h
      cases hdouble : doubleSymbol? c d with
      | none =>
        rw [hdouble] at h
        exact absurd (Lexeme.mk.inj h).1.symm (hm _ _ _)
      | some k' =>
        rw [hdouble] at h
        exact absurd (Lexeme.mk.inj h).1.symm (hm _ _ _)

/-- What is taken from the front of a text and gives no token is misspelt. -/
theorem misspelt_of_lexemeAt (hm : ∀ k v n, m ≠ .token k v n) (h : lexemeAt c cs = ⟨m, l, rest⟩) :
    Misspelt l rest m := by
  rw [lexemeAt] at h
  split at h
  · obtain ⟨k, v, n, hw⟩ := wordMeaning_eq_token (String.ofList ((c :: cs).takeWhile isWordChar))
    rw [wordAt, hw] at h
    exact absurd (Lexeme.mk.inj h).1.symm (hm k v n)
  split at h
  · next hc => exact misspelt_of_numberAt hc hm h
  split at h
  · exact misspelt_of_textAt hm h
  · next hl hd hq =>
    exact misspelt_of_symbolAt ⟨Bool.eq_false_iff.mpr hl, Bool.eq_false_iff.mpr hd, hq⟩ hm h

/-- **Taking a lexeme fails by the rules.** No token is found at the front of a text
exactly if what is taken there is misspelt. -/
theorem lexemeAt_eq_fault_iff (hm : ∀ k v n, m ≠ .token k v n) :
    lexemeAt c cs = ⟨m, l, rest⟩ ↔ c :: cs = l ++ rest ∧ Misspelt l rest m := by
  constructor
  · intro h
    have happ := taken_append_rest c cs
    rw [h] at happ
    exact ⟨happ.symm, misspelt_of_lexemeAt hm h⟩
  · rintro ⟨hcs, h⟩
    obtain ⟨d, ds, rfl, hlex⟩ := h.lexemeAt_eq
    obtain ⟨rfl, rfl⟩ := List.cons.inj hcs
    exact hlex

end

end Pseudocode
