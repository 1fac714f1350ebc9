/-
# The lexical rules

What a lexeme is, apart from how it is found: the words, numbers, quoted texts and
operators that source text is made of, each with the token it stands for
(`Spells`), and when nothing that follows could still belong to it (`Maximal`). Taking
one lexeme from the front of a text gives a token exactly by these rules
(`lexemeAt_eq_token_iff`), so it takes the only lexeme that is maximal there.

Key definitions: `Quoted`, `Spells`, `Maximal`.
Key theorems: `quotedRun_eq_iff`, `numberValue_eq_ok_iff`, `lexemeAt_eq_token_iff`.
-/
import Mathlib.Data.List.TakeDrop
import Mathlib.Data.List.TakeWhile
import Pseudocode.Token.Lexeme

namespace Pseudocode

/-- The kinds that are spelled with one or two characters that are no letters. -/
def symbols : List TokenKind :=
  [.assign, .plus, .minus, .times, .divide, .less, .greater, .equal, .notEqual, .lessEqual,
    .greaterEqual, .leftParen, .rightParen]

/-- What is written between two quotes, and the text it stands for. -/
inductive Quoted : List Char → List Char → Prop where
  | nil : Quoted [] []
  | newline {body text : List Char} : Quoted body text → Quoted ('\\' :: 'n' :: body) ('\n' :: text)
  | escaped {c : Char} {body text : List Char} : c ≠ 'n' → Quoted body text →
      Quoted ('\\' :: c :: body) (c :: text)
  | plain {c : Char} {body text : List Char} : c ≠ '\'' → c ≠ '\\' → Quoted body text →
      Quoted (c :: body) (c :: text)

/-- Digits, perhaps with a point, and the number they stand for. -/
inductive Numeral : List Char → Value → Prop where
  /-- Without a point they are an integer of at most 63 bits. -/
  | int {ds : List Char} : ds ≠ [] → (∀ d ∈ ds, isAsciiDigit d) → Nat.ofDigitChars 10 ds 0 < twoTo 63 →
      Numeral ds (.int (Int64.ofNat (Nat.ofDigitChars 10 ds 0)))
  /-- With one, after the first digit, they are the double nearest to them. -/
  | float {whole fraction : List Char} {x : Float} : whole ≠ [] → (∀ d ∈ whole, isAsciiDigit d) →
      (∀ d ∈ fraction, isAsciiDigit d) →
      Decimal.nearest? ⟨Nat.ofDigitChars 10 (whole ++ fraction) 0, fraction.length⟩ = some x →
        Numeral (whole ++ '.' :: fraction) (.float x)

/-- The characters are a lexeme for a token of a kind, with the value of a literal and
the name of an identifier. -/
inductive Spells : List Char → TokenKind → Value → String → Prop where
  | newline : Spells ['\n'] .newline .invalid ""
  | symbol {k : TokenKind} : k ∈ symbols → Spells k.spelling.toList k .invalid ""
  | keyword {k : TokenKind} : k ∈ TokenKind.keywords → Spells k.spelling.toList k .invalid ""
  | truth (b : Bool) : Spells (if b then "True" else "False").toList .literal (.bool b) ""
  /-- Any other word is a name. -/
  | identifier {c : Char} {cs : List Char} : isLetter c → (∀ d ∈ cs, isWordChar d) →
      (∀ k ∈ TokenKind.keywords, k.spelling ≠ String.ofList (c :: cs)) →
      String.ofList (c :: cs) ≠ "True" → String.ofList (c :: cs) ≠ "False" →
        Spells (c :: cs) .identifier .invalid (String.ofList (c :: cs))
  | number {ds : List Char} {v : Value} : Numeral ds v → Spells ds .literal v ""
  | text {body text : List Char} : Quoted body text →
      Spells ('\'' :: body ++ ['\'']) .literal (.text (String.ofList text)) ""

/-- The lexeme `l` does not go on in `rest`. -/
structure Maximal (l rest : List Char) : Prop where
  /-- No letter or digit follows a word. -/
  word : ∀ c ∈ l.head?, isLetter c → ∀ d ∈ rest.head?, ¬ isWordChar d
  /-- No digit, point or letter follows a number. -/
  number : ∀ c ∈ l.head?, isAsciiDigit c →
    ∀ d ∈ rest.head?, ¬ isAsciiDigit d ∧ d ≠ '.' ∧ ¬ isLetter d
  less : l = ['<'] → ∀ d ∈ rest.head?, d ≠ '-' ∧ d ≠ '='
  greater : l = ['>'] → ∀ d ∈ rest.head?, d ≠ '='

/-! ### Classes of characters -/

theorem isAsciiDigit_iff {c : Char} : isAsciiDigit c ↔ 48 ≤ c.toNat ∧ c.toNat ≤ 57 := by
  simp only [isAsciiDigit, Bool.and_eq_true, decide_eq_true_eq, Char.le_def, UInt32.le_iff_toNat_le]
  rfl

theorem isAsciiLetter_iff {c : Char} : isAsciiLetter c ↔
    (97 ≤ c.toNat ∧ c.toNat ≤ 122) ∨ (65 ≤ c.toNat ∧ c.toNat ≤ 90) := by
  simp only [isAsciiLetter, Bool.or_eq_true, Bool.and_eq_true, decide_eq_true_eq, Char.le_def,
    UInt32.le_iff_toNat_le]
  rfl

theorem not_isLetter_of_isAsciiDigit {c : Char} (h : isAsciiDigit c) : isLetter c = false := by
  have hd := isAsciiDigit_iff.mp h
  have ha : isAsciiLetter c = false := by
    rw [Bool.eq_false_iff, ne_eq, isAsciiLetter_iff]
    omega
  have hn : ¬ 128 ≤ c.toNat := by omega
  simp [isLetter, ha, hn]

/-- A run of characters of a class is all that is taken from the front, if the next
character is of another class. -/
theorem takeWhile_dropWhile_append {p : Char → Bool} {l rest : List Char} (hl : ∀ c ∈ l, p c)
    (hrest : ∀ c ∈ rest.head?, ¬ p c) :
    (l ++ rest).takeWhile p = l ∧ (l ++ rest).dropWhile p = rest := by
  rw [List.takeWhile_append_of_pos hl, List.dropWhile_append_of_pos hl]
  cases rest with
  | nil => simp
  | cons c rest => simp [hrest c rfl]

/-- A run of characters of a class ends in one place: the run and what follows it are
determined by the whole. -/
theorem append_run_inj {p : Char → Bool} {l l' rest rest' : List Char} (hl : ∀ c ∈ l, p c)
    (hl' : ∀ c ∈ l', p c) (hrest : ∀ c ∈ rest.head?, ¬ p c) (hrest' : ∀ c ∈ rest'.head?, ¬ p c)
    (h : l ++ rest = l' ++ rest') : l = l' ∧ rest = rest' := by
  obtain ⟨ht, hd⟩ := takeWhile_dropWhile_append hl hrest
  obtain ⟨ht', hd'⟩ := takeWhile_dropWhile_append hl' hrest'
  exact ⟨by rw [← ht, h, ht'], by rw [← hd, h, hd']⟩

theorem head?_dropWhile {p : Char → Bool} {cs : List Char} : ∀ c ∈ (cs.dropWhile p).head?, ¬ p c := by
  intro c hc
  have := List.head?_dropWhile_not p cs
  rw [Option.mem_def.mp hc] at this
  simpa using this

/-! ### Texts -/

theorem quotedRun_quote (rest : List Char) : quotedRun ('\'' :: rest) = (['\''], some [], rest) := by
  rw [quotedRun.eq_def]
  simp

theorem quotedRun_plain {c : Char} (hq : c ≠ '\'') (hb : c ≠ '\\') (cs : List Char) :
    quotedRun (c :: cs) =
      (c :: (quotedRun cs).1, (quotedRun cs).2.1.map (c :: ·), (quotedRun cs).2.2) := by
  rw [quotedRun.eq_def]
  simp [hq, hb]

theorem quotedRun_escape (c : Char) (cs : List Char) : quotedRun ('\\' :: c :: cs) =
    ('\\' :: c :: (quotedRun cs).1, (quotedRun cs).2.1.map (unescaped c :: ·), (quotedRun cs).2.2) := by
  rw [quotedRun.eq_def]
  simp

theorem Quoted.quotedRun_eq {body text : List Char} (h : Quoted body text) (rest : List Char) :
    quotedRun (body ++ '\'' :: rest) = (body ++ ['\''], some text, rest) := by
  induction h with
  | nil => exact quotedRun_quote rest
  | newline _ ih => simp [quotedRun_escape, ih, unescaped]
  | escaped hc _ ih => simp [quotedRun_escape, ih, unescaped, hc]
  | plain hq hb _ ih => simp [quotedRun_plain hq hb, ih]

theorem quoted_of_quotedRun (cs : List Char) : ∀ {run text rest : List Char},
    quotedRun cs = (run, some text, rest) →
      ∃ body, run = body ++ ['\''] ∧ Quoted body text ∧ cs = body ++ '\'' :: rest := by
  induction cs using quotedRun.induct with
  | case1 => simp [quotedRun]
  | case2 cs =>
    intro run text rest h
    rw [quotedRun_quote] at h
    obtain ⟨rfl, rfl, rfl⟩ := by simpa using h
    exact ⟨[], rfl, .nil, rfl⟩
  | case3 => simp [quotedRun]
  | case4 d ds run text rest heq _ ih =>
    intro run' text' rest' h
    rw [quotedRun_escape, heq] at h
    simp only [Prod.mk.injEq, Option.map_eq_some_iff] at h
    obtain ⟨rfl, ⟨text, rfl, rfl⟩, rfl⟩ := h
    obtain ⟨body, rfl, hbody, rfl⟩ := ih heq
    by_cases hd : d = 'n'
    · exact ⟨'\\' :: 'n' :: body, by simp [hd], by simpa [unescaped, hd] using hbody.newline, by simp [hd]⟩
    · exact ⟨'\\' :: d :: body, rfl, by simpa [unescaped, hd] using hbody.escaped hd, rfl⟩
  | case5 c cs hq hb run text rest heq ih =>
    intro run' text' rest' h
    rw [quotedRun_plain hq hb, heq] at h
    simp only [Prod.mk.injEq, Option.map_eq_some_iff] at h
    obtain ⟨rfl, ⟨text, rfl, rfl⟩, rfl⟩ := h
    obtain ⟨body, rfl, hbody, rfl⟩ := ih heq
    exact ⟨c :: body, rfl, hbody.plain hq hb, rfl⟩

/-- What stands up to the closing quote is found exactly if it is a quoted text. -/
theorem quotedRun_eq_iff {cs run text rest : List Char} : quotedRun cs = (run, some text, rest) ↔
    ∃ body, run = body ++ ['\''] ∧ Quoted body text ∧ cs = body ++ '\'' :: rest := by
  constructor
  · exact quoted_of_quotedRun cs
  · rintro ⟨body, rfl, h, rfl⟩
    exact h.quotedRun_eq rest

/-! ### Numbers -/

theorem isAsciiDigit_of_ne_point {c : Char} (h : isNumberChar c) (hc : c ≠ '.') : isAsciiDigit c := by
  simpa [isNumberChar, hc] using h

theorem ne_point_of_isAsciiDigit {c : Char} (h : isAsciiDigit c) : c ≠ '.' := by
  rintro rfl
  exact absurd h (by decide)

theorem not_contains_point {ds : List Char} (h : ∀ d ∈ ds, isAsciiDigit d) : ds.contains '.' = false := by
  simp only [List.contains_eq_mem, decide_eq_false_iff_not]
  exact fun hm => ne_point_of_isAsciiDigit (h _ hm) rfl

theorem span_point {whole : List Char} (h : ∀ d ∈ whole, isAsciiDigit d) (fraction : List Char) :
    (whole ++ '.' :: fraction).span (· ≠ '.') = (whole, '.' :: fraction) := by
  have hw : ∀ c ∈ whole, decide (c ≠ '.') := fun c hc => by simpa using ne_point_of_isAsciiDigit (h c hc)
  rw [List.span_eq_takeWhile_dropWhile, List.takeWhile_append_of_pos hw, List.dropWhile_append_of_pos hw]
  simp

theorem Decimal.read?_point {whole fraction : List Char} (hw : ∀ d ∈ whole, isAsciiDigit d)
    (hf : ∀ d ∈ fraction, isAsciiDigit d) : Decimal.read? (whole ++ '.' :: fraction) =
      some ⟨Nat.ofDigitChars 10 (whole ++ fraction) 0, fraction.length⟩ := by
  simp only [Decimal.read?, span_point hw, not_contains_point hf, Bool.false_eq_true, ↓reduceIte]

theorem Decimal.read?_eq_some {run : List Char} {d : Decimal} (h : Decimal.read? run = some d) :
    ∃ whole fraction, run = whole ++ '.' :: fraction ∧ '.' ∉ whole ∧ '.' ∉ fraction ∧
      d = ⟨Nat.ofDigitChars 10 (whole ++ fraction) 0, fraction.length⟩ := by
  rw [Decimal.read?, List.span_eq_takeWhile_dropWhile] at h
  have happ : run.takeWhile (· ≠ '.') ++ run.dropWhile (· ≠ '.') = run := List.takeWhile_append_dropWhile
  have hwhole : '.' ∉ run.takeWhile (· ≠ '.') := fun hm => by simpa using List.mem_takeWhile_imp hm
  split at h
  · next whole fraction heq =>
    simp only [Prod.mk.injEq] at heq
    obtain ⟨rfl, hdrop⟩ := heq
    split at h
    · simp at h
    · next hc =>
      exact ⟨_, fraction, by rw [← hdrop, happ], hwhole, by simpa using hc, by simpa using h.symm⟩
  · simp at h

theorem numberValue_of_point {run : List Char} (h : run.contains '.' = true) {v : Value} :
    numberValue run = .ok v ↔ ∃ d x, Decimal.read? run = some d ∧ d.nearest? = some x ∧ v = .float x := by
  rw [numberValue, if_pos h]
  rcases hread : (Decimal.read? run).bind Decimal.nearest? with _ | x
  · rw [Option.bind_eq_none_iff] at hread
    simp only [reduceCtorEq, false_iff]
    rintro ⟨d, x, hd, hx, -⟩
    simp [hread d hd] at hx
  · obtain ⟨d, hd, hx⟩ := Option.bind_eq_some_iff.mp hread
    simp [hd, hx, eq_comm]

theorem numberValue_of_no_point {run : List Char} (h : run.contains '.' = false) {v : Value} :
    numberValue run = .ok v ↔ Nat.ofDigitChars 10 run 0 < twoTo 63 ∧
      v = .int (Int64.ofNat (Nat.ofDigitChars 10 run 0)) := by
  rw [numberValue, h, if_neg Bool.false_ne_true]
  by_cases hlt : Nat.ofDigitChars 10 run 0 < twoTo 63
  · rw [if_pos hlt, Except.ok.injEq, eq_comm]
    exact (and_iff_right hlt).symm
  · rw [if_neg hlt]
    simp [hlt]

/-- Digits and points have a value exactly if they are a numeral. -/
theorem numberValue_eq_ok_iff {run : List Char} {v : Value} (hrun : ∀ c ∈ run, isNumberChar c)
    (hhead : ∃ c ∈ run.head?, isAsciiDigit c) : numberValue run = .ok v ↔ Numeral run v := by
  constructor
  · intro h
    cases hc : run.contains '.' with
    | true =>
      obtain ⟨d, x, hd, hx, rfl⟩ := (numberValue_of_point hc).mp h
      obtain ⟨whole, fraction, rfl, hw, hf, rfl⟩ := Decimal.read?_eq_some hd
      have hne : whole ≠ [] := by
        rintro rfl
        obtain ⟨_, ⟨⟩, hp⟩ := hhead
        exact ne_point_of_isAsciiDigit hp rfl
      exact .float hne
        (fun c hm => isAsciiDigit_of_ne_point (hrun c (by simp [hm])) fun he => hw (he ▸ hm))
        (fun c hm => isAsciiDigit_of_ne_point (hrun c (by simp [hm])) fun he => hf (he ▸ hm)) hx
    | false =>
      obtain ⟨hlt, rfl⟩ := (numberValue_of_no_point hc).mp h
      have hpoint : '.' ∉ run := by simpa using hc
      have hne : run ≠ [] := by
        rintro rfl
        simp at hhead
      exact .int hne (fun c hm => isAsciiDigit_of_ne_point (hrun c hm) fun he => hpoint (he ▸ hm)) hlt
  · rintro (⟨_, hds, hlt⟩ | ⟨_, hw, hf, hx⟩)
    · exact (numberValue_of_no_point (not_contains_point hds)).mpr ⟨hlt, rfl⟩
    · exact (numberValue_of_point (by simp)).mpr ⟨_, _, Decimal.read?_point hw hf, hx, rfl⟩

/-- A numeral is a run of digits and points after a digit. -/
theorem Numeral.shape {ds : List Char} {v : Value} (h : Numeral ds v) :
    (∀ c ∈ ds, isNumberChar c) ∧ ∃ c cs, ds = c :: cs ∧ isAsciiDigit c := by
  obtain ⟨hne, hds, -⟩ | @⟨whole, fraction, _, hne, hw, hf, -⟩ := h
  · obtain ⟨c, cs, rfl⟩ := List.exists_cons_of_ne_nil hne
    exact ⟨fun d hd => isNumberChar_of_isAsciiDigit (hds d hd), c, cs, rfl, hds c List.mem_cons_self⟩
  · obtain ⟨c, cs, rfl⟩ := List.exists_cons_of_ne_nil hne
    refine ⟨?_, c, cs ++ '.' :: fraction, rfl, hw c List.mem_cons_self⟩
    intro d hd
    rcases List.mem_append.mp hd with hd | hd
    · exact isNumberChar_of_isAsciiDigit (hw d hd)
    · rcases List.mem_cons.mp hd with rfl | hd
      · decide
      · exact isNumberChar_of_isAsciiDigit (hf d hd)

/-! ### Words -/

theorem wordKind_of_mem_keywords : ∀ k ∈ TokenKind.keywords, wordKind k.spelling = k := by
  decide

theorem isWord_of_mem_keywords : ∀ k ∈ TokenKind.keywords,
    (∃ c ∈ k.spelling.toList.head?, isLetter c) ∧ ∀ c ∈ k.spelling.toList, isWordChar c := by
  have hhead : ∀ k ∈ TokenKind.keywords, k.spelling.toList.head?.any isLetter := by decide
  have hall : ∀ k ∈ TokenKind.keywords, k.spelling.toList.all isWordChar := by decide
  exact fun k hk => ⟨(Option.any_eq_true _ _).mp (hhead k hk), List.all_eq_true.mp (hall k hk)⟩

theorem wordMeaning_keyword {k : TokenKind} (hk : k ∈ TokenKind.keywords) :
    wordMeaning k.spelling = .plain k := by
  have hl : k ≠ .literal := by rintro rfl; exact absurd hk (by decide)
  have hi : k ≠ .identifier := by rintro rfl; exact absurd hk (by decide)
  rw [wordMeaning, wordKind_of_mem_keywords k hk]
  split <;> simp_all

theorem wordMeaning_identifier {w : String} (hk : ∀ k ∈ TokenKind.keywords, k.spelling ≠ w)
    (ht : w ≠ "True") (hf : w ≠ "False") : wordMeaning w = .token .identifier .invalid w := by
  have hfind : TokenKind.keywords.find? (·.spelling = w) = none := by
    rw [List.find?_eq_none]
    simpa using hk
  simp [wordMeaning, wordKind, hfind, ht, hf]

theorem wordMeaning_truth (b : Bool) :
    wordMeaning (if b then "True" else "False") = .literal (.bool b) := by
  cases b
  · rw [wordMeaning, if_neg Bool.false_ne_true, (by decide : wordKind "False" = .literal)]
    rfl
  · rw [wordMeaning, if_pos rfl, (by decide : wordKind "True" = .literal)]
    rfl

/-- Every word is a lexeme for what it means. -/
theorem spells_word {c : Char} {cs : List Char} (hc : isLetter c) (hcs : ∀ d ∈ cs, isWordChar d)
    {k : TokenKind} {v : Value} {n : String} (h : wordMeaning (String.ofList (c :: cs)) = .token k v n) :
    Spells (c :: cs) k v n := by
  by_cases hk : ∃ k ∈ TokenKind.keywords, k.spelling = String.ofList (c :: cs)
  · obtain ⟨k', hk', hw⟩ := hk
    rw [← hw, wordMeaning_keyword hk', Meaning.plain] at h
    obtain ⟨rfl, rfl, rfl⟩ := by simpa using h
    have hs := Spells.keyword hk'
    rwa [hw, String.toList_ofList] at hs
  by_cases hb : ∃ b : Bool, (if b then "True" else "False") = String.ofList (c :: cs)
  · obtain ⟨b, hw⟩ := hb
    rw [← hw, wordMeaning_truth, Meaning.literal] at h
    obtain ⟨rfl, rfl, rfl⟩ := by simpa using h
    have hs := Spells.truth b
    rwa [hw, String.toList_ofList] at hs
  · have hk' : ∀ k ∈ TokenKind.keywords, k.spelling ≠ String.ofList (c :: cs) := fun k hm he => hk ⟨k, hm, he⟩
    have ht : String.ofList (c :: cs) ≠ "True" := fun he => hb ⟨true, by simp [he]⟩
    have hf : String.ofList (c :: cs) ≠ "False" := fun he => hb ⟨false, by simp [he]⟩
    rw [wordMeaning_identifier hk' ht hf, Meaning.token.injEq] at h
    obtain ⟨rfl, rfl, rfl⟩ := h
    exact .identifier hc hcs hk' ht hf

theorem lexemeAt_word {c : Char} {cs rest : List Char} (hc : isLetter c) (hcs : ∀ d ∈ cs, isWordChar d)
    (hrest : ∀ d ∈ rest.head?, ¬ isWordChar d) :
    lexemeAt c (cs ++ rest) = ⟨wordMeaning (String.ofList (c :: cs)), c :: cs, rest⟩ := by
  have hall : ∀ d ∈ c :: cs, isWordChar d := by
    rintro d (_ | ⟨_, hd⟩)
    · exact isWordChar_of_isLetter hc
    · exact hcs d hd
  obtain ⟨htake, hdrop⟩ := takeWhile_dropWhile_append hall hrest
  rw [lexemeAt, if_pos hc, wordAt, ← List.cons_append, htake, hdrop]

theorem lexemeAt_of_word {w : String} {rest : List Char} (hhead : ∃ c ∈ w.toList.head?, isLetter c)
    (hall : ∀ c ∈ w.toList, isWordChar c) (hmax : Maximal w.toList rest) :
    ∃ c cs, w.toList = c :: cs ∧ lexemeAt c (cs ++ rest) = ⟨wordMeaning w, w.toList, rest⟩ := by
  obtain ⟨c, hhead, hc⟩ := hhead
  obtain ⟨cs, hcs⟩ := List.head?_eq_some_iff.mp hhead
  refine ⟨c, cs, hcs, ?_⟩
  rw [lexemeAt_word hc (fun d hd => hall d (by simp [hcs, hd])) (hmax.word c hhead hc), ← hcs,
    String.ofList_toList]

/-! ### Operators -/

theorem Spells.symbol_eq {k : TokenKind} {l : List Char} (hk : k ∈ symbols) (hl : k.spelling.toList = l) :
    Spells l k .invalid "" :=
  hl ▸ .symbol hk

theorem singleSymbol?_spells {c : Char} {k : TokenKind} (h : singleSymbol? c = some k) :
    Spells [c] k .invalid "" := by
  unfold singleSymbol? at h
  split at h <;> simp only [reduceCtorEq, Option.some.injEq] at h <;> subst h
  · exact .newline
  all_goals exact .symbol_eq (by decide) (by decide)

theorem doubleSymbol?_spells {c d : Char} {k : TokenKind} (h : doubleSymbol? c d = some k) :
    Spells [c, d] k .invalid "" := by
  unfold doubleSymbol? at h
  split at h <;> simp only [reduceCtorEq, Option.some.injEq] at h <;> subst h
  all_goals exact .symbol_eq (by decide) (by decide)

/-- A character that starts no word, number or text. -/
def StartsSymbol (c : Char) : Prop := isLetter c = false ∧ isAsciiDigit c = false ∧ c ≠ '\''

theorem lexemeAt_symbol {c : Char} (hc : StartsSymbol c) (cs : List Char) :
    lexemeAt c cs = symbolAt c cs := by
  simp [lexemeAt, hc.1, hc.2.1, hc.2.2]

theorem lexemeAt_single {c : Char} {k : TokenKind} {rest : List Char} (hc : StartsSymbol c)
    (hk : singleSymbol? c = some k) (hrest : ∀ d ∈ rest.head?, doubleSymbol? c d = none) :
    lexemeAt c rest = ⟨.plain k, [c], rest⟩ := by
  rw [lexemeAt_symbol hc]
  cases rest with
  | nil => simp [symbolAt, singleMeaning, hk]
  | cons d rest => simp [symbolAt, singleMeaning, hk, hrest d rfl]

theorem lexemeAt_double {c d : Char} {k : TokenKind} (hc : StartsSymbol c)
    (hk : doubleSymbol? c d = some k) (rest : List Char) :
    lexemeAt c (d :: rest) = ⟨.plain k, [c, d], rest⟩ := by
  rw [lexemeAt_symbol hc, symbolAt, hk]

/-- A symbol is one character or two, and found as such where it is maximal. -/
theorem lexemeAt_of_mem_symbols {k : TokenKind} (hk : k ∈ symbols) {rest : List Char}
    (hmax : Maximal k.spelling.toList rest) : ∃ c cs, k.spelling.toList = c :: cs ∧
      lexemeAt c (cs ++ rest) = ⟨.plain k, c :: cs, rest⟩ := by
  have single : ∀ c, k.spelling.toList = [c] → StartsSymbol c → singleSymbol? c = some k →
      (∀ d ∈ rest.head?, doubleSymbol? c d = none) → ∃ c cs, k.spelling.toList = c :: cs ∧
        lexemeAt c (cs ++ rest) = ⟨.plain k, c :: cs, rest⟩ :=
    fun c hs hc hk hrest => ⟨c, [], hs, lexemeAt_single hc hk hrest⟩
  have double : ∀ c d, k.spelling.toList = [c, d] → StartsSymbol c → doubleSymbol? c d = some k →
      ∃ c cs, k.spelling.toList = c :: cs ∧ lexemeAt c (cs ++ rest) = ⟨.plain k, c :: cs, rest⟩ :=
    fun c d hs hc hk => ⟨c, [d], hs, lexemeAt_double hc hk rest⟩
  simp only [symbols, List.mem_cons, List.not_mem_nil, or_false] at hk
  rcases hk with rfl | rfl | rfl | rfl | rfl | rfl | rfl | rfl | rfl | rfl | rfl | rfl | rfl
  · exact double '<' '-' (by decide) ⟨rfl, rfl, by decide⟩ rfl
  · exact single '+' (by decide) ⟨rfl, rfl, by decide⟩ rfl fun _ _ => rfl
  · exact single '-' (by decide) ⟨rfl, rfl, by decide⟩ rfl fun _ _ => rfl
  · exact single '*' (by decide) ⟨rfl, rfl, by decide⟩ rfl fun _ _ => rfl
  · exact single '/' (by decide) ⟨rfl, rfl, by decide⟩ rfl fun _ _ => rfl
  · refine single '<' (by decide) ⟨rfl, rfl, by decide⟩ rfl fun d hd => ?_
    obtain ⟨h₁, h₂⟩ := hmax.less (by decide) d hd
    simp [doubleSymbol?, h₁, h₂]
  · refine single '>' (by decide) ⟨rfl, rfl, by decide⟩ rfl fun d hd => ?_
    simp [doubleSymbol?, hmax.greater (by decide) d hd]
  · exact single '=' (by decide) ⟨rfl, rfl, by decide⟩ rfl fun _ _ => rfl
  · exact double '!' '=' (by decide) ⟨rfl, rfl, by decide⟩ rfl
  · exact double '<' '=' (by decide) ⟨rfl, rfl, by decide⟩ rfl
  · exact double '>' '=' (by decide) ⟨rfl, rfl, by decide⟩ rfl
  · exact single '(' (by decide) ⟨rfl, rfl, by decide⟩ rfl fun _ _ => rfl
  · exact single ')' (by decide) ⟨rfl, rfl, by decide⟩ rfl fun _ _ => rfl

/-! ### The lexeme in front -/

/-- A maximal lexeme is what is taken from the front of a text. -/
theorem Spells.lexemeAt_eq {l rest : List Char} {k : TokenKind} {v : Value} {n : String}
    (h : Spells l k v n) (hmax : Maximal l rest) :
    ∃ c cs, l = c :: cs ∧ lexemeAt c (cs ++ rest) = ⟨.token k v n, l, rest⟩ := by
  cases h with
  | newline => exact ⟨'\n', [], rfl, lexemeAt_single ⟨rfl, rfl, by decide⟩ rfl fun _ _ => rfl⟩
  | symbol hk =>
    obtain ⟨c, cs, hs, hlex⟩ := lexemeAt_of_mem_symbols hk hmax
    exact ⟨c, cs, hs, hs ▸ hlex⟩
  | keyword hk =>
    obtain ⟨hhead, hall⟩ := isWord_of_mem_keywords k hk
    obtain ⟨c, cs, hs, hlex⟩ := lexemeAt_of_word hhead hall hmax
    exact ⟨c, cs, hs, by rw [hlex, wordMeaning_keyword hk, Meaning.plain]⟩
  | truth b =>
    have hhead : ∀ b : Bool, (if b then "True" else "False").toList.head?.any isLetter := by decide
    have hall : ∀ b : Bool, (if b then "True" else "False").toList.all isWordChar := by decide
    obtain ⟨c, cs, hs, hlex⟩ :=
      lexemeAt_of_word ((Option.any_eq_true _ _).mp (hhead b)) (List.all_eq_true.mp (hall b)) hmax
    exact ⟨c, cs, hs, by rw [hlex, wordMeaning_truth, Meaning.literal]⟩
  | @identifier c cs hc hcs hk ht hf =>
    refine ⟨c, cs, rfl, ?_⟩
    rw [lexemeAt_word hc hcs (hmax.word c rfl hc), wordMeaning_identifier hk ht hf]
  | number hnum =>
    obtain ⟨hall, c, cs, rfl, hc⟩ := hnum.shape
    have hnext := hmax.number c rfl hc
    have hstop : ∀ d ∈ rest.head?, ¬ isNumberChar d := fun d hd => by
      obtain ⟨h₁, h₂, -⟩ := hnext d hd
      simpa [isNumberChar, h₂] using h₁
    obtain ⟨htake, hdrop⟩ := takeWhile_dropWhile_append hall hstop
    have hletter : rest.head?.filter isLetter = none := by
      rw [Option.filter_eq_none_iff]
      exact fun d hd => (hnext d hd).2.2
    have hval := (numberValue_eq_ok_iff hall ⟨c, rfl, hc⟩).mpr hnum
    refine ⟨c, cs, rfl, ?_⟩
    rw [lexemeAt, if_neg (by simp [not_isLetter_of_isAsciiDigit hc]), if_pos hc, numberAt,
      ← List.cons_append, htake, hdrop, numberMeaning, hletter, hval]
    rfl
  | @text body text hq =>
    refine ⟨'\'', body ++ ['\''], rfl, ?_⟩
    have hrun := hq.quotedRun_eq rest
    rw [lexemeAt, if_neg (by decide), if_neg (by decide), if_pos rfl, textAt, List.append_assoc,
      List.singleton_append, hrun]
    rfl

/-! Each class of lexemes is maximal by the first of the four rules that concerns it; the
first character excludes the others. -/

theorem Maximal.of_word {c : Char} {cs rest : List Char} (hc : isLetter c)
    (hrest : ∀ d ∈ rest.head?, ¬ isWordChar d) : Maximal (c :: cs) rest where
  word := fun _ _ _ => hrest
  number := by
    rintro _ ⟨⟩ hd
    simp [not_isLetter_of_isAsciiDigit hd] at hc
  less := fun he => by
    obtain ⟨rfl, -⟩ := List.cons.inj he
    exact absurd hc (by decide)
  greater := fun he => by
    obtain ⟨rfl, -⟩ := List.cons.inj he
    exact absurd hc (by decide)

theorem Maximal.of_number {c : Char} {cs rest : List Char} (hc : isAsciiDigit c)
    (hrest : ∀ d ∈ rest.head?, ¬ isNumberChar d) (hletter : ∀ d ∈ rest.head?, ¬ isLetter d) :
    Maximal (c :: cs) rest where
  word := by
    rintro _ ⟨⟩ hd
    simp [not_isLetter_of_isAsciiDigit hc] at hd
  number := by
    rintro _ - - d hd
    have hd' := hrest d hd
    simp only [isNumberChar, Bool.or_eq_true, beq_iff_eq, not_or] at hd'
    exact ⟨hd'.1, hd'.2, hletter d hd⟩
  less := fun he => by
    obtain ⟨rfl, -⟩ := List.cons.inj he
    exact absurd hc (by decide)
  greater := fun he => by
    obtain ⟨rfl, -⟩ := List.cons.inj he
    exact absurd hc (by decide)

theorem Maximal.of_symbol {c : Char} {cs rest : List Char} (hl : isLetter c = false)
    (hd : isAsciiDigit c = false) (hless : c :: cs = ['<'] → ∀ d ∈ rest.head?, d ≠ '-' ∧ d ≠ '=')
    (hgreater : c :: cs = ['>'] → ∀ d ∈ rest.head?, d ≠ '=') : Maximal (c :: cs) rest where
  word := by
    rintro _ ⟨⟩ h
    simp [hl] at h
  number := by
    rintro _ ⟨⟩ h
    simp [hd] at h
  less := hless
  greater := hgreater

section
variable {c : Char} {cs l rest : List Char} {k : TokenKind} {v : Value} {n : String}

theorem spells_of_wordAt (hc : isLetter c) (h : wordAt (c :: cs) = ⟨.token k v n, l, rest⟩) :
    Spells l k v n ∧ Maximal l rest := by
  rw [wordAt, List.takeWhile_cons_of_pos (isWordChar_of_isLetter hc),
    List.dropWhile_cons_of_pos (isWordChar_of_isLetter hc), Lexeme.mk.injEq] at h
  obtain ⟨hw, rfl, rfl⟩ := h
  exact ⟨spells_word hc (fun d hd => List.mem_takeWhile_imp hd) hw, .of_word hc head?_dropWhile⟩

theorem spells_of_numberAt (hc : isAsciiDigit c) (h : numberAt (c :: cs) = ⟨.token k v n, l, rest⟩) :
    Spells l k v n ∧ Maximal l rest := by
  rw [numberAt, Lexeme.mk.injEq] at h
  obtain ⟨hm, rfl, rfl⟩ := h
  have hall : ∀ d ∈ (c :: cs).takeWhile isNumberChar, isNumberChar d := fun d hd => List.mem_takeWhile_imp hd
  have hcons : (c :: cs).takeWhile isNumberChar = c :: cs.takeWhile isNumberChar :=
    List.takeWhile_cons_of_pos (isNumberChar_of_isAsciiDigit hc)
  rw [hcons] at hm hall ⊢
  rw [numberMeaning] at hm
  split at hm
  · simp at hm
  · next hletter =>
    rw [Option.filter_eq_none_iff] at hletter
    cases hv : numberValue (c :: cs.takeWhile isNumberChar) with
    | error fault => simp [hv] at hm
    | ok v' =>
      obtain ⟨rfl, rfl, rfl⟩ := by simpa [hv, Meaning.literal] using hm
      exact ⟨.number ((numberValue_eq_ok_iff hall ⟨c, rfl, hc⟩).mp hv),
        .of_number hc head?_dropWhile hletter⟩

theorem spells_of_textAt (h : textAt cs = ⟨.token k v n, l, rest⟩) : Spells l k v n ∧ Maximal l rest := by
  rcases hrun : quotedRun cs with ⟨run, _ | text, rest'⟩
  · simp [textAt, hrun] at h
  · simp only [textAt, hrun, Lexeme.mk.injEq, Meaning.literal, Meaning.token.injEq] at h
    obtain ⟨⟨rfl, rfl, rfl⟩, rfl, rfl⟩ := h
    obtain ⟨body, rfl, hq, -⟩ := quotedRun_eq_iff.mp hrun
    exact ⟨.text hq, .of_symbol (by decide) (by decide) (by simp) (by simp)⟩

theorem singleMeaning_eq_token (h : singleMeaning c cs = .token k v n) :
    singleSymbol? c = some k ∧ v = .invalid ∧ n = "" := by
  unfold singleMeaning at h
  cases hs : singleSymbol? c with
  | some k' =>
    obtain ⟨rfl, rfl, rfl⟩ := by simpa [hs, Meaning.plain] using h
    exact ⟨rfl, rfl, rfl⟩
  | none =>
    simp only [hs] at h
    split at h
    · split at h <;> simp at h
    · simp at h

theorem spells_of_symbolAt (hl : isLetter c = false) (hd : isAsciiDigit c = false)
    (h : symbolAt c cs = ⟨.token k v n, l, rest⟩) : Spells l k v n ∧ Maximal l rest := by
  cases cs with
  | nil =>
    simp only [symbolAt, Lexeme.mk.injEq] at h
    obtain ⟨hm, rfl, rfl⟩ := h
    obtain ⟨hs, rfl, rfl⟩ := singleMeaning_eq_token hm
    exact ⟨singleSymbol?_spells hs, .of_symbol hl hd (by simp) (by simp)⟩
  | cons d ds =>
    cases hdouble : doubleSymbol? c d with
    | some k' =>
      simp only [symbolAt, hdouble, Meaning.plain, Lexeme.mk.injEq, Meaning.token.injEq] at h
      obtain ⟨⟨rfl, rfl, rfl⟩, rfl, rfl⟩ := h
      exact ⟨doubleSymbol?_spells hdouble, .of_symbol hl hd (by simp) (by simp)⟩
    | none =>
      simp only [symbolAt, hdouble, Lexeme.mk.injEq] at h
      obtain ⟨hm, rfl, rfl⟩ := h
      obtain ⟨hs, rfl, rfl⟩ := singleMeaning_eq_token hm
      refine ⟨singleSymbol?_spells hs, .of_symbol hl hd ?_ ?_⟩
      · rintro ⟨⟩ _ ⟨⟩
        constructor <;> rintro rfl <;> simp [doubleSymbol?] at hdouble
      · rintro ⟨⟩ _ ⟨⟩ rfl
        simp [doubleSymbol?] at hdouble

/-- What is taken from the front of a text and gives a token is a maximal lexeme. -/
theorem spells_of_lexemeAt (h : lexemeAt c cs = ⟨.token k v n, l, rest⟩) :
    Spells l k v n ∧ Maximal l rest := by
  rw [lexemeAt] at h
  split at h
  · next hc => exact spells_of_wordAt hc h
  split at h
  · next hc => exact spells_of_numberAt hc h
  split at h
  · exact spells_of_textAt h
  · next hl hd _ =>
    exact spells_of_symbolAt (Bool.eq_false_iff.mpr hl) (Bool.eq_false_iff.mpr hd) h

/-- **Taking a lexeme follows the lexical rules.** A token is found at the front of a
text exactly if it stands for a maximal lexeme there. -/
theorem lexemeAt_eq_token_iff : lexemeAt c cs = ⟨.token k v n, l, rest⟩ ↔
    c :: cs = l ++ rest ∧ Spells l k v n ∧ Maximal l rest := by
  constructor
  · intro h
    have happ := taken_append_rest c cs
    rw [h] at happ
    exact ⟨happ.symm, spells_of_lexemeAt h⟩
  · rintro ⟨hcs, hs, hmax⟩
    obtain ⟨d, ds, rfl, hlex⟩ := hs.lexemeAt_eq hmax
    obtain ⟨rfl, rfl⟩ := List.cons.inj hcs
    exact hlex

end

end Pseudocode
