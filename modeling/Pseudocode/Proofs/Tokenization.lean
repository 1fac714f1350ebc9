/-
# A source and its tokens

A source that scans is blanks and lexemes in turn, each lexeme maximal (`Split`).
Nothing else is in it, there is one way to divide it, and the tokens are those of the
lexemes, each at the place that counting newlines and characters in front of it gives
(`Pos.after`, `tokensOf`).

One step of the scanner takes one piece of a split (`tokens_cons`), and the place it
keeps is always the one counted from the text behind it (`Pos.advanceBy_after`).

Key definitions: `Pos.after`, `Pos.Before`, `Piece`, `Split`, `tokensOf`.
Key theorems: `Scanner.tokens_eq_ok_iff`, `Split.unique`, `pairwise_before_tokensOf`,
`scan_is_maximal_munch`.
-/
import Pseudocode.Proofs.LexicalRules
import Pseudocode.Token.Scanner

namespace Pseudocode

/-! ### Places -/

namespace Pos

/-- The place after the text `cs` at the start of a source: one line more for each
newline, and one column more for each character since the last of them. -/
def after (file : String) (cs : List Char) : Pos :=
  ⟨file, 1 + cs.count '\n', 1 + (cs.reverse.takeWhile (· ≠ '\n')).length⟩

/-- An earlier line, or the same line and an earlier column. -/
def Before (p q : Pos) : Prop := p.line < q.line ∨ (p.line = q.line ∧ p.col < q.col)

theorem after_nil (file : String) : after file [] = start file := rfl

theorem advance_after (file : String) (cs : List Char) (c : Char) :
    (after file cs).advance c = after file (cs ++ [c]) := by
  by_cases hc : c = '\n'
  · subst hc
    simp [advance, after, List.count_append]
    omega
  · simp [advance, after, List.count_append, hc]
    omega

/-- The place kept while reading is the place counted from the text read. -/
theorem advanceBy_after (file : String) : ∀ before cs : List Char,
    (after file before).advanceBy cs = after file (before ++ cs)
  | before, [] => by simp [advanceBy]
  | before, c :: cs => by
    have ih := advanceBy_after file (before ++ [c]) cs
    rw [← advance_after] at ih
    simpa [advanceBy] using ih

theorem Before.trans {p q r : Pos} (h : p.Before q) (h' : q.Before r) : p.Before r := by
  unfold Before at *
  omega

theorem before_advance (p : Pos) (c : Char) : p.Before (p.advance c) := by
  unfold Before advance
  split
  · exact .inl (Int.lt_succ p.line)
  · exact .inr ⟨rfl, Int.lt_succ p.col⟩

/-- Reading moves on. -/
theorem before_after (file : String) (before : List Char) : ∀ {cs : List Char}, cs ≠ [] →
    (after file before).Before (after file (before ++ cs))
  | [c], _ => by
    rw [← advance_after]
    exact before_advance _ c
  | c :: d :: cs, _ => by
    have h := before_after file (before ++ [c]) (List.cons_ne_nil d cs)
    rw [← advance_after, List.append_assoc] at h
    exact (before_advance _ c).trans h

end Pos

/-! ### Splits -/

/-- A lexeme with the blanks in front of it and what it stands for. -/
structure Piece where
  blanks : List Char
  lexeme : List Char
  kind : TokenKind
  value : Value
  name : String

/-- The source is the pieces one after the other and blanks at the end: each lexeme
follows the lexical rules and is maximal where it stands. -/
inductive Split : List Char → List Piece → List Char → Prop where
  | done {w : List Char} : (∀ c ∈ w, isSpacing c) → Split w [] w
  | more {p : Piece} {rest : List Char} {ps : List Piece} {w : List Char} :
      (∀ c ∈ p.blanks, isSpacing c) → Spells p.lexeme p.kind p.value p.name →
      Maximal p.lexeme rest → Split rest ps w → Split (p.blanks ++ (p.lexeme ++ rest)) (p :: ps) w

/-- The tokens of pieces that stand after `before`, and the end token after the blanks
`w`. -/
def tokensOf (file : String) (before : List Char) : List Piece → List Char → List Token
  | [], w => [{ kind := .eof, pos := .after file (before ++ w) }]
  | p :: ps, w => ⟨p.kind, .after file (before ++ p.blanks), p.value, p.name⟩ ::
      tokensOf file (before ++ (p.blanks ++ p.lexeme)) ps w

/-! ### Steps of the scanner -/

theorem not_isSpacing_of_isWordChar {c : Char} (h : isWordChar c) : ¬ isSpacing c := by
  intro hs
  simp only [isSpacing, Bool.or_eq_true, beq_iff_eq] at hs
  obtain (((rfl | rfl) | rfl) | rfl) | rfl := hs <;> exact absurd h (by decide)

theorem isSpacing_nil : ∀ c ∈ ([] : List Char), isSpacing c := by
  simp

theorem isSpacing_blank : ∀ c ∈ [' '], isSpacing c := by
  simp [isSpacing]

/-- A lexeme is not empty and starts with no blank. -/
theorem Spells.exists_cons {l : List Char} {k : TokenKind} {v : Value} {n : String}
    (h : Spells l k v n) : ∃ c cs, l = c :: cs ∧ ¬ isSpacing c := by
  cases h with
  | newline => exact ⟨'\n', [], rfl, by decide⟩
  | symbol hk =>
    have hall : ∀ k ∈ symbols, k.spelling.toList.head?.any (!isSpacing ·) := by decide
    obtain ⟨c, hc, hs⟩ := (Option.any_eq_true _ _).mp (hall k hk)
    obtain ⟨cs, hcs⟩ := List.head?_eq_some_iff.mp hc
    exact ⟨c, cs, hcs, by simpa using hs⟩
  | keyword hk =>
    obtain ⟨c, hc, hl⟩ := (isWord_of_mem_keywords k hk).1
    obtain ⟨cs, hcs⟩ := List.head?_eq_some_iff.mp hc
    exact ⟨c, cs, hcs, not_isSpacing_of_isWordChar (isWordChar_of_isLetter hl)⟩
  | truth b =>
    cases b
    · exact ⟨'F', "alse".toList, rfl, by decide⟩
    · exact ⟨'T', "rue".toList, rfl, by decide⟩
  | @identifier c cs hc => exact ⟨c, cs, rfl, not_isSpacing_of_isWordChar (isWordChar_of_isLetter hc)⟩
  | number hnum =>
    obtain ⟨-, c, cs, rfl, hc⟩ := hnum.shape
    exact ⟨c, cs, rfl, not_isSpacing_of_isWordChar (by simp [isWordChar, hc])⟩
  | @text body => exact ⟨'\'', body ++ ['\''], rfl, by decide⟩

/-- A lexeme that is maximal where it stands is what is taken there. -/
theorem Spells.exists_lexemeAt {l rest : List Char} {k : TokenKind} {v : Value} {n : String}
    (h : Spells l k v n) (hmax : Maximal l rest) : ∃ c cs, l = c :: cs ∧ ¬ isSpacing c ∧
      lexemeAt c (cs ++ rest) = ⟨.token k v n, l, rest⟩ := by
  obtain ⟨c, cs, hl, hc⟩ := h.exists_cons
  exact ⟨c, cs, hl, hc, lexemeAt_eq_token_iff.mpr ⟨by rw [hl, List.cons_append], h, hmax⟩⟩

theorem Spells.head?_append {l : List Char} {k : TokenKind} {v : Value} {n : String} (h : Spells l k v n)
    (rest : List Char) : ∀ c ∈ (l ++ rest).head?, ¬ isSpacing c := by
  obtain ⟨c, cs, rfl, hc⟩ := h.exists_cons
  simpa using hc

namespace Scanner

theorem tokens_eq (s : Scanner) : s.tokens =
    s.next.1.bind fun t => if s.atEnd then .ok [t] else s.next.2.tokens.map (t :: ·) := by
  rw [tokens]
  rcases s.next with ⟨_ | t, after⟩
  · rfl
  · by_cases h : s.atEnd <;> simp [h, Except.bind]

theorem tokens_blank (p : Pos) {cs : List Char} (h : ∀ c ∈ cs, isSpacing c) :
    (Scanner.mk p cs).tokens = .ok [{ kind := .eof, pos := p.advanceBy cs }] := by
  have hskip : (Scanner.mk p cs).skipSpacing = ⟨p.advanceBy cs, []⟩ := by
    simp [skipSpacing, List.takeWhile_eq_self_iff.mpr h, List.dropWhile_eq_nil_iff.mpr h]
  rw [tokens_eq, next, atEnd, hskip]
  rfl

theorem skipSpacing_lexeme (p : Pos) {blanks : List Char} {c : Char} (cs : List Char)
    (hb : ∀ d ∈ blanks, isSpacing d) (hc : ¬ isSpacing c) :
    (Scanner.mk p (blanks ++ c :: cs)).skipSpacing = ⟨p.advanceBy blanks, c :: cs⟩ := by
  have hhead : ∀ d ∈ (c :: cs).head?, ¬ isSpacing d := by simpa using hc
  obtain ⟨htake, hdrop⟩ := takeWhile_dropWhile_append hb hhead
  simp [skipSpacing, htake, hdrop]

/-- One step takes the blanks and the lexeme after them. -/
theorem next_lexeme (p : Pos) {blanks : List Char} {c : Char} (cs : List Char)
    (hb : ∀ d ∈ blanks, isSpacing d) (hc : ¬ isSpacing c) {l : Lexeme} (hl : lexemeAt c cs = l) :
    (Scanner.mk p (blanks ++ c :: cs)).next =
      (report (p.advanceBy blanks) ((p.advanceBy blanks).advanceBy l.taken) l.meaning,
        ⟨(p.advanceBy blanks).advanceBy l.taken, l.rest⟩) := by
  rw [next, skipSpacing_lexeme p cs hb hc]
  subst hl
  rfl

theorem tokens_lexeme (p : Pos) {blanks : List Char} {c : Char} (cs : List Char)
    (hb : ∀ d ∈ blanks, isSpacing d) (hc : ¬ isSpacing c) {l : Lexeme} (hl : lexemeAt c cs = l) :
    (Scanner.mk p (blanks ++ c :: cs)).tokens =
      (report (p.advanceBy blanks) ((p.advanceBy blanks).advanceBy l.taken) l.meaning).bind fun t =>
        (Scanner.mk ((p.advanceBy blanks).advanceBy l.taken) l.rest).tokens.map (t :: ·) := by
  rw [tokens_eq, next_lexeme p cs hb hc hl, atEnd, skipSpacing_lexeme p cs hb hc]
  rfl

/-- A run that gives tokens found one at its first lexeme and went on to the end. -/
theorem exists_of_tokens_lexeme (p : Pos) {blanks : List Char} {c : Char} {cs : List Char}
    (hb : ∀ d ∈ blanks, isSpacing d) (hc : ¬ isSpacing c) {ts : List Token}
    (h : (Scanner.mk p (blanks ++ c :: cs)).tokens = .ok ts) : ∃ k v n l rest ts',
      lexemeAt c cs = ⟨.token k v n, l, rest⟩ ∧
        (Scanner.mk ((p.advanceBy blanks).advanceBy l) rest).tokens = .ok ts' := by
  rcases hlex : lexemeAt c cs with ⟨⟨k, v, n⟩ | _ | _, l, rest⟩ <;>
    rw [tokens_lexeme p cs hb hc hlex] at h
  · cases hrest : (Scanner.mk ((p.advanceBy blanks).advanceBy l) rest).tokens with
    | error e => simp [hrest, report, Except.bind, Except.map] at h
    | ok ts' => exact ⟨k, v, n, l, rest, ts', rfl, hrest⟩
  · simp [report, Except.bind] at h
  · simp [report, Except.bind] at h

end Scanner

/-! ### Splits and runs -/

/-- The scanner reads a split text piece by piece. -/
theorem Split.tokens_eq (file : String) {cs : List Char} {ps : List Piece} {w : List Char}
    (h : Split cs ps w) : ∀ before : List Char,
      (Scanner.mk (.after file before) cs).tokens = .ok (tokensOf file before ps w) := by
  induction h with
  | done hw =>
    intro before
    rw [Scanner.tokens_blank _ hw, Pos.advanceBy_after, tokensOf]
  | @more p rest ps w hb hs hmax _ ih =>
    intro before
    obtain ⟨c, cs, hl, hc, hlex⟩ := hs.exists_lexemeAt hmax
    rw [hl, List.cons_append, Scanner.tokens_lexeme _ _ hb hc hlex, Pos.advanceBy_after,
      Pos.advanceBy_after, List.append_assoc, ih]
    rfl

/-- A text that is read to its end splits. The induction is on the length of what is
left, which every lexeme shortens. -/
theorem exists_split (file : String) (before cs : List Char) {ts : List Token}
    (h : (Scanner.mk (.after file before) cs).tokens = .ok ts) : ∃ ps w, Split cs ps w := by
  induction hn : cs.length using Nat.strong_induction_on generalizing before cs ts with
  | _ n ih =>
    have hblank : ∀ c ∈ cs.takeWhile isSpacing, isSpacing c := fun c hc => List.mem_takeWhile_imp hc
    have happ : cs.takeWhile isSpacing ++ cs.dropWhile isSpacing = cs := List.takeWhile_append_dropWhile
    have hhead : ∀ c ∈ (cs.dropWhile isSpacing).head?, ¬ isSpacing c := head?_dropWhile
    generalize cs.takeWhile isSpacing = blanks at hblank happ
    rcases hdrop : cs.dropWhile isSpacing with _ | ⟨c, cs'⟩
    · rw [hdrop, List.append_nil] at happ
      exact ⟨[], cs, .done (happ ▸ hblank)⟩
    · rw [hdrop] at happ hhead
      subst happ
      obtain ⟨k, v, name, l, rest, ts', hlex, hrest⟩ :=
        Scanner.exists_of_tokens_lexeme _ hblank (hhead c rfl) h
      obtain ⟨hcs, hs, hmax⟩ := lexemeAt_eq_token_iff.mp hlex
      have hlt : rest.length < n := by
        have hlen := length_rest_lt c cs'
        rw [hlex] at hlen
        rw [← hn, List.length_append]
        exact Nat.lt_add_left _ hlen
      rw [Pos.advanceBy_after, Pos.advanceBy_after] at hrest
      obtain ⟨ps, w, hsplit⟩ := ih rest.length hlt _ rest hrest rfl
      rw [hcs]
      exact ⟨_, w, .more (p := ⟨blanks, l, k, v, name⟩) hblank hs hmax hsplit⟩

theorem Scanner.tokens_eq_ok_iff {file : String} {before cs : List Char} {ts : List Token} :
    (Scanner.mk (.after file before) cs).tokens = .ok ts ↔
      ∃ ps w, Split cs ps w ∧ ts = tokensOf file before ps w := by
  constructor
  · intro h
    obtain ⟨ps, w, hsplit⟩ := exists_split file before cs h
    rw [hsplit.tokens_eq file before, Except.ok.injEq] at h
    exact ⟨ps, w, hsplit, h.symm⟩
  · rintro ⟨ps, w, hsplit, rfl⟩
    exact hsplit.tokens_eq file before

/-- Two maximal lexemes at the front of one text are the same. -/
theorem Spells.unique {l l' rest rest' : List Char} {k k' : TokenKind} {v v' : Value} {n n' : String}
    (hs : Spells l k v n) (hmax : Maximal l rest) (hs' : Spells l' k' v' n') (hmax' : Maximal l' rest')
    (h : l ++ rest = l' ++ rest') : (l = l' ∧ rest = rest') ∧ k = k' ∧ v = v' ∧ n = n' := by
  obtain ⟨c, cs, hl, -⟩ := hs.exists_cons
  have hcons : c :: (cs ++ rest) = l ++ rest := by rw [hl, List.cons_append]
  have hlex := lexemeAt_eq_token_iff.mpr ⟨hcons, hs, hmax⟩
  have hlex' := lexemeAt_eq_token_iff.mpr ⟨hcons.trans h, hs', hmax'⟩
  rw [hlex, Lexeme.mk.injEq, Meaning.token.injEq] at hlex'
  exact ⟨hlex'.2, hlex'.1⟩

theorem not_split_more {p : Piece} {rest : List Char} (hs : Spells p.lexeme p.kind p.value p.name)
    (h : ∀ c ∈ p.blanks ++ (p.lexeme ++ rest), isSpacing c) : False := by
  obtain ⟨c, cs, hl, hc⟩ := hs.exists_cons
  exact hc (h c (by simp [hl]))

/-- **A text splits in one way.** -/
theorem Split.unique {cs : List Char} {ps ps' : List Piece} {w w' : List Char}
    (h : Split cs ps w) (h' : Split cs ps' w') : ps = ps' ∧ w = w' := by
  induction h generalizing ps' with
  | done hw =>
    cases h' with
    | done => exact ⟨rfl, rfl⟩
    | more _ hs _ _ => exact (not_split_more hs hw).elim
  | @more p rest ps w hb hs hmax _ ih =>
    generalize hcs : p.blanks ++ (p.lexeme ++ rest) = cs at h'
    cases h' with
    | done hw => exact (not_split_more hs (hcs ▸ hw)).elim
    | @more p' rest' ps' _ hb' hs' hmax' htail =>
      obtain ⟨hblanks, happ⟩ := append_run_inj hb hb' (hs.head?_append _) (hs'.head?_append _) hcs
      obtain ⟨⟨hl, rfl⟩, hk, hv, hn⟩ := hs.unique hmax hs' hmax' happ
      obtain ⟨rfl, rfl⟩ := ih htail
      have hp : p = p' := by
        cases p
        cases p'
        simp_all
      exact ⟨by rw [hp], rfl⟩

theorem exists_pos_eq_of_mem_tokensOf {file : String} {t : Token} {w : List Char} : ∀ {ps : List Piece}
    {before : List Char}, t ∈ tokensOf file before ps w → ∃ cs, t.pos = .after file (before ++ cs)
  | [], before, h => by
    rw [tokensOf, List.mem_singleton] at h
    exact ⟨w, h ▸ rfl⟩
  | p :: ps, before, h => by
    rw [tokensOf, List.mem_cons] at h
    rcases h with rfl | h
    · exact ⟨p.blanks, rfl⟩
    · obtain ⟨cs, hcs⟩ := exists_pos_eq_of_mem_tokensOf h
      exact ⟨p.blanks ++ p.lexeme ++ cs, by simpa using hcs⟩

theorem pairwise_before_tokensOf (file : String) {cs : List Char} {ps : List Piece} {w : List Char}
    (h : Split cs ps w) : ∀ before : List Char,
      (tokensOf file before ps w).Pairwise fun s t => s.pos.Before t.pos := by
  induction h with
  | done => exact fun _ => List.pairwise_singleton _ _
  | @more p rest ps w _ hs _ _ ih =>
    intro before
    refine List.pairwise_cons.mpr ⟨fun t ht => ?_, ih _⟩
    obtain ⟨c, cs, hl, -⟩ := hs.exists_cons
    obtain ⟨cs', hcs'⟩ := exists_pos_eq_of_mem_tokensOf ht
    have hne : p.lexeme ++ cs' ≠ [] := by simp [hl]
    rw [hcs']
    simpa using Pos.before_after file (before ++ p.blanks) hne

theorem scan_eq_ok_iff {file src : String} {ts : List Token} :
    scan file src = .ok ts ↔ ∃ ps w, Split src.toList ps w ∧ ts = tokensOf file [] ps w := by
  rw [scan, Scanner.ofSource, ← Pos.after_nil, Scanner.tokens_eq_ok_iff]

/-- **Scanning is maximal munch.** A source scans exactly if it is blanks and maximal
lexemes in turn, with no character left over. The tokens are then those of the lexemes
and the end, each at the place that the text in front of it gives; the split is the only
one, and places strictly increase. -/
theorem scan_is_maximal_munch (file src : String) :
    (∀ ts, scan file src = .ok ts ↔ ∃ ps w, Split src.toList ps w ∧ ts = tokensOf file [] ps w) ∧
      (∀ ps w ps' w', Split src.toList ps w → Split src.toList ps' w' → ps = ps' ∧ w = w') ∧
      ∀ ts, scan file src = .ok ts → ts.Pairwise fun s t => s.pos.Before t.pos := by
  refine ⟨fun ts => scan_eq_ok_iff, fun _ _ _ _ h h' => h.unique h', fun ts hts => ?_⟩
  obtain ⟨ps, w, hsplit, rfl⟩ := scan_eq_ok_iff.mp hts
  exact pairwise_before_tokensOf file hsplit []

/-- A name, an arrow and, on the next line, a text with an escaped quote. -/
def assignmentSource : String := "n <-\n 'it\\'s'"

def assignmentPieces : List Piece :=
  [⟨[], ['n'], .identifier, .invalid, "n"⟩,
    ⟨[' '], ['<', '-'], .assign, .invalid, ""⟩,
    ⟨[], ['\n'], .newline, .invalid, ""⟩,
    ⟨[' '], "'it\\'s'".toList, .literal, .text "it's", ""⟩]

theorem assignmentPieces_split : Split assignmentSource.toList assignmentPieces [] := by
  have hquoted : Quoted "it\\'s".toList "it's".toList :=
    .plain (by decide) (by decide) (.plain (by decide) (by decide)
      (.escaped (by decide) (.plain (by decide) (by decide) .nil)))
  have htext : Split (" 'it\\'s'").toList (assignmentPieces.drop 3) [] :=
    @Split.more ⟨[' '], _, _, _, _⟩ [] _ _ isSpacing_blank (.text hquoted)
      (.of_symbol (by decide) (by decide) (by simp) (by simp)) (.done isSpacing_nil)
  have hline : Split ("\n 'it\\'s'").toList (assignmentPieces.drop 2) [] :=
    @Split.more ⟨[], _, _, _, _⟩ _ _ _ isSpacing_nil .newline
      (.of_symbol (by decide) (by decide) (by simp) (by simp)) htext
  have harrow : Split (" <-\n 'it\\'s'").toList (assignmentPieces.drop 1) [] :=
    @Split.more ⟨[' '], ['<', '-'], .assign, _, _⟩ _ _ _ isSpacing_blank (.symbol_eq (by decide) rfl)
      (.of_symbol (by decide) (by decide) (by simp) (by simp)) hline
  exact @Split.more ⟨[], ['n'], _, _, _⟩ _ _ _ isSpacing_nil
    (.identifier (by decide) (by simp) (by decide) (by decide) (by decide))
    (.of_word (by decide) (by rintro _ ⟨⟩; decide)) harrow

theorem assignmentSource_is_munched : ∃ ts, scan "in" assignmentSource = .ok ts ∧
    ts.map (·.pos) = [⟨"in", 1, 1⟩, ⟨"in", 1, 3⟩, ⟨"in", 1, 5⟩, ⟨"in", 2, 2⟩, ⟨"in", 2, 9⟩] ∧
    ts.Pairwise (fun s t => s.pos.Before t.pos) ∧
    ∀ ps w, Split assignmentSource.toList ps w → assignmentPieces = ps ∧ [] = w := by
  obtain ⟨hscan, hunique, hbefore⟩ := scan_is_maximal_munch "in" assignmentSource
  have hts := (hscan _).mpr ⟨_, _, assignmentPieces_split, rfl⟩
  exact ⟨_, hts, by decide, hbefore _ hts, fun ps w => hunique _ _ ps w assignmentPieces_split⟩

end Pseudocode
