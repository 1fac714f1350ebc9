/-
# Sources one after the other

A source that scans keeps its tokens when something stands behind it that its last lexeme
cannot go on with. The scanner is then where the source ends, and goes on with the rest as
if nothing had been in front of it, only at another place (`scan_front`, `tokens_behind`).

With a newline or a blank between two sources this gives the tokens of both from those of
each (`scan_separated`). The newline is a token of its own, and what is behind it starts
a line; behind a blank the columns of the first line go on from where the source ends.

Key definitions: `Pos.lowered`, `Pos.continued`.
Key theorems: `scan_front`, `scan_separated`.
-/
import Pseudocode.Proofs.MovedPlaces
import Pseudocode.Proofs.SourceExtension

namespace Pseudocode

/-! ### The tokens in front -/

theorem tokensOf_eq (file : String) (w : List Char) : ∀ (ps : List Piece) (before : List Char),
    tokensOf file before ps w = placedTokens file before ps ++
      [{ kind := .eof, pos := .after file (before ++ (textOf ps ++ w)) }]
  | [], before => rfl
  | p :: ps, before => by
    rw [tokensOf, placedTokens, tokensOf_eq file w ps]
    simp [textOf]

theorem Split.textOf_append {cs w : List Char} {ps : List Piece} (h : Split cs ps w) :
    textOf ps ++ w = cs :=
  h.leads.1.textOf_append

/-- The tokens of a text behind another one are the tokens it has alone, further on. -/
theorem Split.placedTokens_eq (file : String) {cs w : List Char} {ps : List Piece} (h : Split cs ps w)
    (before : List Char) :
    placedTokens file before ps = (placedTokens file [] ps).map (Token.moved (Pos.behind before)) := by
  have hbehind := Scanner.tokens_behind file before cs
  rw [h.tokens_eq file before, ← Pos.after_nil, h.tokens_eq file []] at hbehind
  have htokens := Except.ok.inj hbehind
  rw [tokensOf_eq, tokensOf_eq, List.map_append] at htokens
  exact (List.append_inj' htokens rfl).1

theorem Scanner.skipSpacing_append (p : Pos) {blanks : List Char} (hb : ∀ c ∈ blanks, isSpacing c)
    (cs : List Char) : (Scanner.mk p (blanks ++ cs)).skipSpacing =
      (Scanner.mk (p.advanceBy blanks) cs).skipSpacing := by
  have hadvance : ∀ l : List Char, p.advanceBy (blanks ++ l) = (p.advanceBy blanks).advanceBy l :=
    fun _ => List.foldl_append
  simp only [skipSpacing, List.takeWhile_append_of_pos hb, List.dropWhile_append_of_pos hb, hadvance]

/-- Blanks in front only move the scanner on. -/
theorem Scanner.tokens_append_blanks (p : Pos) {blanks : List Char} (hb : ∀ c ∈ blanks, isSpacing c)
    (cs : List Char) :
    (Scanner.mk p (blanks ++ cs)).tokens = (Scanner.mk (p.advanceBy blanks) cs).tokens := by
  have hskip := skipSpacing_append p hb cs
  have hnext : (Scanner.mk p (blanks ++ cs)).next = (Scanner.mk (p.advanceBy blanks) cs).next := by
    unfold next
    rw [hskip]
  rw [tokens_eq, tokens_eq (.mk (p.advanceBy blanks) cs), hnext, atEnd, hskip]
  rfl

/-- A source that scans gives an end token at its end. -/
theorem exists_split_of_scan {file s : String} {ts : List Token} (h : scan file s = .ok ts) :
    ∃ ps w, Split s.toList ps w ∧ ts = placedTokens file [] ps ++
      [{ kind := .eof, pos := .after file s.toList }] := by
  obtain ⟨ps, w, hsplit, rfl⟩ := scan_eq_ok_iff.mp h
  exact ⟨ps, w, hsplit, by rw [tokensOf_eq, hsplit.textOf_append, List.nil_append]⟩

/-- **A source keeps its tokens when it is separated from what follows**, and the scanner
then goes on with that. -/
theorem scan_front {file s : String} {body : List Token} {stop : Token}
    (h : scan file s = .ok (body ++ [stop])) {later : List Char} (hlater : Separated later)
    (before : List Char) : (Scanner.mk (.after file before) (s.toList ++ later)).tokens =
      (Scanner.mk (.after file (before ++ s.toList)) later).tokens.map
        (body.map (Token.moved (Pos.behind before)) ++ ·) := by
  obtain ⟨ps, w, hsplit, hts⟩ := exists_split_of_scan h
  obtain ⟨rfl, -⟩ := List.append_inj' hts rfl
  obtain ⟨hleads, hw⟩ := hsplit.leads
  have hmore : Leads (s.toList ++ later) ps (w ++ later) := hleads.append fun _ => hlater
  rw [hmore.tokens_eq, Scanner.tokens_append_blanks _ hw, Pos.advanceBy_after, List.append_assoc,
    hsplit.textOf_append, hsplit.placedTokens_eq]

/-! ### Two sources -/

/-- So many lines further down. -/
def Pos.lowered (lines : Int) (p : Pos) : Pos := { p with line := p.line + lines }

/-- So many lines further down, and on the first line so many columns to the right. -/
def Pos.continued (lines cols : Int) (p : Pos) : Pos :=
  ⟨p.file, p.line + lines, if p.line = 1 then p.col + cols else p.col⟩

theorem Pos.behind_newline (cs : List Char) : behind (cs ++ ['\n']) = lowered (cs.count '\n' + 1) := by
  funext p
  simp [behind, lowered, List.count_append]

theorem Pos.behind_blank (file : String) (cs : List Char) :
    behind (cs ++ [' ']) = continued (cs.count '\n') (after file cs).col := by
  funext p
  simp [behind, continued, after, List.count_append, Int.add_comm]

theorem Pos.behind_nil : behind [] = id := by
  funext p
  simp [behind]

theorem Token.map_moved_id (ts : List Token) : ts.map (Token.moved id) = ts := List.map_id ts

/-- A newline is a token, and the scanner is then behind it. -/
theorem Scanner.tokens_newline (p : Pos) (cs : List Char) : (Scanner.mk p ('\n' :: cs)).tokens =
    (Scanner.mk (p.advance '\n') cs).tokens.map ({ kind := .newline, pos := p } :: ·) := by
  have hlex : lexemeAt '\n' cs = ⟨.token .newline .invalid "", ['\n'], cs⟩ :=
    lexemeAt_eq_token_iff.mpr ⟨rfl, .newline, .of_symbol (by decide) (by decide) (by simp) (by simp)⟩
  exact tokens_lexeme p cs isSpacing_nil (by decide) hlex

/-- The tokens of a source and of what follows it. -/
theorem scan_append {file s : String} {body : List Token} {stop : Token}
    (h : scan file s = .ok (body ++ [stop])) {later : String} (hlater : Separated later.toList) :
    scan file (s ++ later) =
      (Scanner.mk (.after file s.toList) later.toList).tokens.map (body ++ ·) := by
  have hfront := scan_front h hlater []
  rw [Pos.behind_nil, Token.map_moved_id] at hfront
  rw [scan, Scanner.ofSource, String.toList_append]
  exact hfront

/-- **Scanning goes source by source.** Let a source scan, and let another one follow it
behind a newline or a blank. The tokens of the two are the tokens of the first one without
its end, the newline where that end was, and the tokens of the second one. These stand on
as many lines further down as the first source and the newline have; behind a blank their
first line goes on from the end of the first source. If the second one has no tokens, both
fail with its error, further on by as much. -/
theorem scan_separated {file s : String} {ss : List Token} (h : scan file s = .ok ss) :
    ∃ body stop, ss = body ++ [stop] ∧ stop.kind = .eof ∧ ∀ t : String,
      scan file (s ++ "\n" ++ t) =
        (movedResult (ScanError.moved (Pos.lowered (s.toList.count '\n' + 1)))
          (List.map (Token.moved (Pos.lowered (s.toList.count '\n' + 1)))) (scan file t)).map
            (body ++ { kind := .newline, pos := stop.pos } :: ·) ∧
      scan file (s ++ " " ++ t) =
        (movedResult (ScanError.moved (Pos.continued (s.toList.count '\n') stop.pos.col))
          (List.map (Token.moved (Pos.continued (s.toList.count '\n') stop.pos.col))) (scan file t)).map
            (body ++ ·) := by
  obtain ⟨ps, w, hsplit, rfl⟩ := exists_split_of_scan h
  refine ⟨_, _, rfl, rfl, fun t => ⟨?_, ?_⟩⟩
  · have hnewline : ("\n" ++ t).toList = '\n' :: t.toList := String.toList_append
    rw [String.append_assoc, scan_append h (hnewline ▸ separated_newline t.toList), hnewline,
      Scanner.tokens_newline, Pos.advance_after, Scanner.tokens_behind, Pos.behind_newline]
    change _ = (movedResult _ _ (Scanner.mk (.start file) t.toList).tokens).map _
    cases (Scanner.mk (.start file) t.toList).tokens <;> rfl
  · have hblank : (" " ++ t).toList = [' '] ++ t.toList := String.toList_append
    rw [String.append_assoc, scan_append h (hblank ▸ separated_blank t.toList), hblank,
      Scanner.tokens_append_blanks _ isSpacing_blank, Pos.advanceBy_after, Scanner.tokens_behind,
      Pos.behind_blank file]
    rfl

/-- A text that goes over two lines and half an operator. -/
def openComparison : String := "'a\nb' <"

def openComparisonPieces : List Piece :=
  [⟨[], "'a\nb'".toList, .literal, .text "a\nb", ""⟩, plainPiece [' '] .less]

theorem openComparison_split : Split openComparison.toList openComparisonPieces [] := by
  have hquoted : Quoted "a\nb".toList "a\nb".toList :=
    .plain (by decide) (by decide) (.plain (by decide) (by decide) (.plain (by decide) (by decide) .nil))
  have hless : Split " <".toList [plainPiece [' '] .less] [] :=
    .plain .less (.inl (by decide)) isSpacing_blank (.of_symbol (by decide) (by decide) (by simp) (by simp))
      (.done isSpacing_nil)
  exact @Split.more ⟨[], _, _, _, _⟩ _ _ _ isSpacing_nil (.text hquoted)
    (.of_symbol (by decide) (by decide) (by simp) (by simp)) hless

theorem equalSign_split : Split "=".toList [plainPiece [] .equal] [] :=
  .plain .equal (.inl (by decide)) isSpacing_nil (.of_symbol (by decide) (by decide) (by simp) (by simp))
    (.done isSpacing_nil)

theorem openComparison_separated :
    scan "in" (openComparison ++ "\n" ++ "=") = .ok
      [⟨.literal, ⟨"in", 1, 1⟩, .text "a\nb", ""⟩, { kind := .less, pos := ⟨"in", 2, 4⟩ },
        { kind := .newline, pos := ⟨"in", 2, 5⟩ }, { kind := .equal, pos := ⟨"in", 3, 1⟩ },
        { kind := .eof, pos := ⟨"in", 3, 2⟩ }] ∧
    scan "in" (openComparison ++ " " ++ "=") = .ok
      [⟨.literal, ⟨"in", 1, 1⟩, .text "a\nb", ""⟩, { kind := .less, pos := ⟨"in", 2, 4⟩ },
        { kind := .equal, pos := ⟨"in", 2, 6⟩ }, { kind := .eof, pos := ⟨"in", 2, 7⟩ }] := by
  have hequal : scan "in" "=" = .ok _ := scan_eq_ok_iff.mpr ⟨_, _, equalSign_split, rfl⟩
  have hopen : scan "in" openComparison = .ok _ := scan_eq_ok_iff.mpr ⟨_, _, openComparison_split, rfl⟩
  obtain ⟨body, stop, hss, -, hboth⟩ := scan_separated hopen
  rw [tokensOf_eq] at hss
  obtain ⟨rfl, hstop⟩ := List.append_inj' hss rfl
  obtain rfl := (List.cons.inj hstop).1
  obtain ⟨hline, hblank⟩ := hboth "="
  rw [hequal] at hline hblank
  exact ⟨hline, hblank⟩

end Pseudocode
