/-
# Tokens as text

Every token that carries what its kind carries has a spelling (`Token.spelled`): a newline,
the spelling of an operator, a parenthesis or a keyword, the name of an identifier, the
source text of a literal. The spelling is a lexeme for that token, and tokens that are not
spellable have no lexeme at all (`Token.spellable_iff`).

Spellings that are joined by blanks split into just these lexemes. A blank ends every
lexeme, whatever the next one starts with (`maximal_of_isSpacing`), so an operator is not
taken together with the one behind it, nor a word with a number. Scanning then gives the
tokens back (`joined_tokens_scan_back`).

Key definitions: `Token.spelled`, `Token.Spellable`, `SpelledOut`.
Key theorems: `Token.spellable_iff`, `maximal_of_isSpacing`, `SpelledOut.exists_split`,
`joined_tokens_scan_back`.
-/
import Pseudocode.Proofs.RoundTrip

namespace Pseudocode

/-- The text of a token. -/
def Token.spelled (t : Token) : String :=
  match t.kind with
  | .newline => "\n"
  | .identifier => t.name
  | .literal => t.value.source
  | k => k.spelling

/-- A word that is a name: it starts with a letter, goes on with letters and digits, and is
no keyword and no truth value. -/
structure IsName (w : String) : Prop where
  head : ∃ c ∈ w.toList.head?, isLetter c
  tail : ∀ c ∈ w.toList.tail, isWordChar c
  not_keyword : ∀ k ∈ TokenKind.keywords, k.spelling ≠ w
  not_true : w ≠ "True"
  not_false : w ≠ "False"

/-- A token of a kind that can be written, wherever it stands, that carries what tokens of
this kind carry and nothing else. -/
inductive Token.Spellable : Token → Prop where
  | newline {p : Pos} : Spellable { kind := .newline, pos := p }
  /-- Operators, parentheses and keywords carry nothing. -/
  | fixed {p : Pos} {k : TokenKind} : k.isOperator ∨ k = .leftParen ∨ k = .rightParen ∨ k.isKeyword →
      Spellable { kind := k, pos := p }
  | identifier {p : Pos} {w : String} : IsName w → Spellable { kind := .identifier, pos := p, name := w }
  | literal {p : Pos} {v : Value} : v.Printable → Spellable { kind := .literal, pos := p, value := v }

/-! ### A spelling is a lexeme -/

/-- The operators, parentheses and keywords are the symbols and the keywords: `DIV`, `MOD` and
the logical operators are both operators and keywords. -/
theorem mem_symbols_or_mem_keywords_iff {k : TokenKind} :
    k.isOperator ∨ k = .leftParen ∨ k = .rightParen ∨ k.isKeyword ↔
      k ∈ symbols ∨ k ∈ TokenKind.keywords := by
  cases k <;> simp [TokenKind.isOperator, TokenKind.isKeyword, symbols, TokenKind.keywords]

theorem spelled_of_fixed {k : TokenKind} (hk : k ∈ symbols ∨ k ∈ TokenKind.keywords) (p : Pos) :
    Token.spelled { kind := k, pos := p } = k.spelling := by
  cases k <;> first | rfl | simp [symbols, TokenKind.keywords] at hk

theorem IsName.spells {w : String} (h : IsName w) : Spells w.toList .identifier .invalid w := by
  obtain ⟨c, hhead, hc⟩ := h.head
  obtain ⟨cs, hcs⟩ := List.head?_eq_some_iff.mp hhead
  have hw : String.ofList (c :: cs) = w := by rw [← hcs, String.ofList_toList]
  have htail := h.tail
  rw [hcs, List.tail_cons] at htail
  have hspells := Spells.identifier hc htail (hw ▸ h.not_keyword) (hw ▸ h.not_true) (hw ▸ h.not_false)
  rwa [hw, ← hcs] at hspells

theorem Token.Spellable.spells {t : Token} (h : t.Spellable) :
    Spells t.spelled.toList t.kind t.value t.name := by
  cases h with
  | newline =>
    have hline : "\n".toList = ['\n'] := rfl
    exact hline ▸ Spells.newline
  | fixed hk =>
    have hmem := mem_symbols_or_mem_keywords_iff.mp hk
    rw [spelled_of_fixed hmem]
    exact hmem.elim .symbol .keyword
  | identifier hw => exact hw.spells
  | literal hv => exact Value.spells_source hv

/-- **The spellable tokens are those that have a lexeme.** -/
theorem Token.spellable_iff {t : Token} : t.Spellable ↔ ∃ l, Spells l t.kind t.value t.name := by
  constructor
  · intro h
    exact ⟨_, h.spells⟩
  · obtain ⟨k, p, v, n⟩ := t
    rintro ⟨l, h⟩
    dsimp only at h
    cases h with
    | newline => exact .newline
    | symbol hk => exact .fixed (mem_symbols_or_mem_keywords_iff.mpr (.inl hk))
    | keyword hk => exact .fixed (mem_symbols_or_mem_keywords_iff.mpr (.inr hk))
    | truth b => exact .literal trivial
    | @identifier c cs hc hcs hk ht hf =>
      refine .identifier ⟨⟨c, by simp, hc⟩, ?_, hk, ht, hf⟩
      simpa using hcs
    | number hnum => exact .literal (Spells.number hnum).printable
    | text => exact .literal trivial

/-! ### Blanks between lexemes -/

/-- No lexeme goes on in a blank. -/
theorem maximal_of_isSpacing {rest : List Char} (h : ∀ d ∈ rest.head?, isSpacing d) (l : List Char) :
    Maximal l rest := by
  have hcases : ∀ d ∈ rest.head?, d = ' ' ∨ d = '\t' ∨ d = '\r' ∨ d = '\x0b' ∨ d = '\x0c' := by
    intro d hd
    simpa [isSpacing, or_assoc] using h d hd
  constructor
  · intro _ _ _ d hd
    obtain rfl | rfl | rfl | rfl | rfl := hcases d hd <;> decide
  · intro _ _ _ d hd
    obtain rfl | rfl | rfl | rfl | rfl := hcases d hd <;> decide
  · intro _ d hd
    obtain rfl | rfl | rfl | rfl | rfl := hcases d hd <;> decide
  · intro _ d hd
    obtain rfl | rfl | rfl | rfl | rfl := hcases d hd <;> decide

/-- The text is the spellings of the tokens in order, with a run of one or more blanks behind
each of them; there may be none behind the last. -/
inductive SpelledOut : List Token → String → Prop where
  | nil : SpelledOut [] ""
  | last (t : Token) : SpelledOut [t] t.spelled
  | more {t : Token} {gap : String} {ts : List Token} {s : String} : gap ≠ "" →
      (∀ c ∈ gap.toList, isSpacing c) → SpelledOut ts s → SpelledOut (t :: ts) (t.spelled ++ gap ++ s)

/-- A spelling is a piece of its own where only blanks can follow. -/
theorem Token.Spellable.split {t : Token} (h : t.Spellable) {blanks rest w : List Char} {ps : List Piece}
    (hb : ∀ c ∈ blanks, isSpacing c) (hrest : ∀ d ∈ rest.head?, isSpacing d) (hs : Split rest ps w) :
    Split (blanks ++ (t.spelled.toList ++ rest)) (⟨blanks, t.spelled.toList, t.kind, t.value, t.name⟩ :: ps) w :=
  .more (p := ⟨blanks, t.spelled.toList, t.kind, t.value, t.name⟩) hb h.spells (maximal_of_isSpacing hrest _) hs

/-- **Joined spellings split into the tokens they are spelled from.** The run behind a token
is the blanks in front of the next one, so the induction is for any blanks in front. -/
theorem SpelledOut.exists_split {ts : List Token} {s : String} (h : SpelledOut ts s)
    (hts : ∀ t ∈ ts, t.Spellable) : ∀ {blanks : List Char}, (∀ c ∈ blanks, isSpacing c) → ∃ ps w,
      Split (blanks ++ s.toList) ps w ∧ ps.map Piece.token = ts.map Token.unplaced := by
  induction h with
  | nil =>
    intro blanks hb
    exact ⟨[], blanks ++ [], .done (by simpa using hb), rfl⟩
  | last t =>
    intro blanks hb
    have hsplit := (hts t (by simp)).split hb (by simp) (.done isSpacing_nil)
    rw [List.append_nil] at hsplit
    exact ⟨_, [], hsplit, rfl⟩
  | @more t gap ts s hne hgap _ ih =>
    intro blanks hb
    obtain ⟨ps, w, hsplit, htokens⟩ := ih (fun t' ht' => hts t' (by simp [ht'])) hgap
    have hhead : ∀ d ∈ (gap.toList ++ s.toList).head?, isSpacing d := by
      obtain ⟨c, cs, hcs⟩ := List.exists_cons_of_ne_nil (mt String.toList_eq_nil_iff.mp hne)
      intro d hd
      rw [hcs, List.cons_append, List.head?_cons, Option.mem_some] at hd
      exact hgap d (by simp [hcs, hd])
    have hmore := (hts t (by simp)).split hb hhead hsplit
    rw [← List.append_assoc t.spelled.toList, ← String.toList_append, ← String.toList_append] at hmore
    exact ⟨_, w, hmore, congrArg (t.unplaced :: ·) htokens⟩

theorem map_unplaced_tokensOf (file : String) (w : List Char) : ∀ (ps : List Piece) (before : List Char),
    (tokensOf file before ps w).map Token.unplaced = ps.map Piece.token ++ [{ kind := .eof }]
  | [], _ => rfl
  | p :: ps, _ => congrArg (p.token :: ·) (map_unplaced_tokensOf file w ps _)

/-- **Tokens that are written and scanned are the same tokens.** Let the spellings of
tokens be joined by any runs of blanks. Scanning the text succeeds, in any file, and gives
tokens of the same kinds, values and names in the same order, and then the end. -/
theorem joined_tokens_scan_back (file : String) {ts : List Token} {s : String} (h : SpelledOut ts s)
    (hts : ∀ t ∈ ts, t.Spellable) :
    ∃ ts', scan file s = .ok ts' ∧ ts'.map Token.unplaced = ts.map Token.unplaced ++ [{ kind := .eof }] := by
  obtain ⟨ps, w, hsplit, htokens⟩ := h.exists_split hts isSpacing_nil
  refine ⟨tokensOf file [] ps w, scan_eq_ok_iff.mpr ⟨ps, w, hsplit, rfl⟩, ?_⟩
  rw [map_unplaced_tokensOf, htokens]

/-- Two lines with a name, operators, a keyword and literals. -/
def twoLineTokens : List Token :=
  [{ kind := .identifier, name := "sum2" }, { kind := .assign }, { kind := .newline }, { kind := .whileWord },
    { kind := .literal, value := .text "it's" }, { kind := .less }, { kind := .equal },
    { kind := .literal, value := .float (Float.ofBits 0x3FE0000000000000) }]

/-- The operators `<` and `=` stay apart. -/
def twoLineSource : String := "sum2\t<- \n WHILE 'it\\'s' < = 0.5"

theorem twoLineTokens_spelledOut : SpelledOut twoLineTokens twoLineSource := by
  have hblank : ∀ {t : Token} {ts : List Token} {s : String}, SpelledOut ts s →
      SpelledOut (t :: ts) (t.spelled ++ " " ++ s) := .more (by decide) (List.all_eq_true.mp rfl)
  obtain ⟨s, hspelled, rfl⟩ : ∃ s, SpelledOut twoLineTokens s ∧ s = twoLineSource :=
    ⟨_, @SpelledOut.more _ "\t" _ _ (by decide) (List.all_eq_true.mp rfl)
      (hblank (hblank (hblank (hblank (hblank (hblank (.last _))))))), by decide +kernel⟩
  exact hspelled

theorem twoLineTokens_scan_back : ∃ ts', scan "in" twoLineSource = .ok ts' ∧
    ts'.map Token.unplaced = twoLineTokens.map Token.unplaced ++ [{ kind := .eof }] := by
  refine joined_tokens_scan_back "in" twoLineTokens_spelledOut ?_
  have hname : IsName "sum2" :=
    ⟨⟨'s', rfl, by decide⟩, List.all_eq_true.mp rfl, by decide, by decide, by decide⟩
  simp only [twoLineTokens, List.forall_mem_cons, List.not_mem_nil, false_implies, implies_true, and_true]
  exact ⟨.identifier hname, .fixed (by decide), .newline, .fixed (by decide), .literal trivial, .fixed (by decide),
    .fixed (by decide), .literal ⟨by decide +kernel, by decide +kernel⟩⟩

end Pseudocode
