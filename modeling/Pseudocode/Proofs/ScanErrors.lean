/-
# Where a scan fails

A source that does not scan has a part in front that does, and behind it a lexeme that is
misspelt. Cutting the source off there takes nothing from the lexemes in front
(`Leads.split_front`), so that part has exactly the tokens that come before the error
(`Leads.steps_eq`). The error stands where the misspelt lexeme starts or at the character
after it, and names the character that stands there (`scan_error_names_character`).

A source that ends too early may scan when it goes on. All other errors are there to stay:
what is misspelt for another reason is misspelt whatever follows a blank or a newline
(`Misspelt.append`), so the same error comes first again (`scan_error_is_permanent`).

Key definition: `characterAt?`.
Key theorems: `characterAt?_after`, `Leads.split_front`, `Leads.steps_eq`,
`scan_error_names_character`, `scan_error_is_permanent`.
-/
import Pseudocode.Proofs.RunReport
import Pseudocode.Proofs.SeparatedSources
import Pseudocode.Proofs.WrappedFailures
import Pseudocode.Session.Continuation

namespace Pseudocode

/-! ### The character at a place -/

/-- The character on a line and in a column of a text. The newline that ends a line stands
behind its last character. -/
def characterAt? (src : List Char) (p : Pos) : Option Char :=
  match (splitLines src).drop (p.line - 1).toNat with
  | [] => none
  | [l] => l[(p.col - 1).toNat]?
  | l :: _ => (l ++ ['\n'])[(p.col - 1).toNat]?

/-- The character behind a part of a text is at the place where that part ends. -/
theorem characterAt?_after (file : String) (front : List Char) (c : Char) (back : List Char) :
    characterAt? (front ++ c :: back) (.after file front) = some c := by
  obtain ⟨l, ls, hback⟩ := exists_splitLines_eq_cons back
  have hline : ((Pos.after file front).line - 1).toNat = front.count '\n' := by
    simp only [Pos.after]
    omega
  have hcol : ((Pos.after file front).col - 1).toNat =
      (front.reverse.takeWhile (· ≠ '\n')).reverse.length := by
    simp only [Pos.after, List.length_reverse]
    omega
  rw [characterAt?, hline, hcol]
  generalize hread : (front.reverse.takeWhile (· ≠ '\n')).reverse = read
  by_cases hc : c = '\n'
  · subst hc
    have hnext : splitLines ('\n' :: back) = [] :: l :: ls := by simp [splitLines, hback]
    rw [drop_splitLines_append front hnext, hread]
    simp
  · have hnext : splitLines (c :: back) = (c :: l) :: ls := by simp [splitLines, hback, hc]
    rw [drop_splitLines_append front hnext, hread]
    cases ls with
    | nil => simp
    | cons l' ls => simp

/-! ### The part in front -/

theorem Maximal.of_append {l rest later : List Char} (h : Maximal l (rest ++ later)) : Maximal l rest := by
  cases rest with
  | nil => exact maximal_nil l
  | cons c rest => exact ⟨h.word, h.number, h.less, h.greater⟩

/-- A text that is cut off behind some lexemes still splits into them. -/
theorem Leads.split_front {cs rest blanks later : List Char} {ps : List Piece} (h : Leads cs ps rest)
    (hrest : rest = blanks ++ later) (hb : ∀ c ∈ blanks, isSpacing c) :
    Split (textOf ps ++ blanks) ps blanks := by
  induction h with
  | done => exact .done hb
  | @more p cs ps rest hp hs hmax htail ih =>
    have hcs := htail.textOf_append
    rw [hrest, ← List.append_assoc] at hcs
    rw [← hcs] at hmax
    simpa [textOf] using Split.more hp hs hmax.of_append (ih hrest)

/-- Stepping goes through the lexemes in front and then on from the rest. -/
theorem Leads.steps_eq (file : String) {cs rest : List Char} {ps : List Piece} (h : Leads cs ps rest)
    (n : Nat) : ∀ before : List Char, (Scanner.mk (.after file before) cs).steps (ps.length + n) =
      (placedTokens file before ps).map .ok ++
        (Scanner.mk (.after file (before ++ textOf ps)) rest).steps n := by
  induction h with
  | done =>
    intro before
    simp [textOf, placedTokens]
  | @more p cs ps rest hb hs hmax _ ih =>
    intro before
    obtain ⟨c, l, hl, hc, hlex⟩ := hs.exists_lexemeAt hmax
    have hread : before ++ textOf (p :: ps) = before ++ (p.blanks ++ p.lexeme) ++ textOf ps := by
      simp [textOf]
    rw [List.length_cons, Nat.add_right_comm, Scanner.steps, hl, List.cons_append,
      Scanner.next_lexeme _ _ hb hc hlex, Pos.advanceBy_after, Pos.advanceBy_after, List.append_assoc,
      ih, hread]
    rfl

theorem length_placedTokens (file : String) : ∀ (ps : List Piece) (before : List Char),
    (placedTokens file before ps).length = ps.length
  | [], _ => rfl
  | _ :: ps, _ => congrArg (· + 1) (length_placedTokens file ps _)

/-- The steps up to a first fault are the tokens in front and then its error. -/
theorem FirstFault.steps_eq {file src : String} {ps : List Piece} {blanks l rest : List Char} {e : ScanError}
    (h : FirstFault file src.toList ps blanks l rest e) :
    (Scanner.ofSource file src).steps (ps.length + 1) =
      (placedTokens file [] ps).map .ok ++ [.error e] := by
  obtain ⟨m, hm, hreport⟩ := h.fault
  obtain ⟨c, cs, rfl, hlex⟩ := hm.lexemeAt_eq
  have hc : ¬ isSpacing c := h.head c rfl
  rw [Scanner.ofSource, ← Pos.after_nil, h.leads.steps_eq, List.cons_append, Scanner.steps,
    Scanner.next_lexeme _ _ h.blank hc hlex, Pos.advanceBy_after, Pos.advanceBy_after, List.nil_append,
    hreport]
  rfl

/-! ### What the error says -/

/-- What an error says, by what is wrong behind the part in front `p`: a character that stands
there or further on, an end that comes too early for the first character, or a number. -/
theorem FirstFault.error_cases {file : String} {cs : List Char} {ps : List Piece} {blanks l rest : List Char}
    {e : ScanError} (h : FirstFault file cs ps blanks l rest e) {p : List Char} (hp : p = textOf ps ++ blanks) :
    (∃ front c back, l ++ rest = front ++ c :: back ∧ e = ⟨.unexpectedChar, .after file (p ++ front), c.toNat⟩) ∨
    (∃ c cs, l ++ rest = c :: cs ∧ (c = '\'' ∧ Unclosed cs ∨ c = '!' ∧ cs = []) ∧
      e = ⟨.unexpectedEnd, .after file p, c.toNat⟩) ∨
    ∃ c cs fault, l ++ rest = c :: cs ∧ isAsciiDigit c ∧ (fault = .badInt ∨ fault = .badFloat) ∧
      e = ⟨fault, .after file p, 0⟩ := by
  obtain ⟨m, hm, hreport⟩ := h.fault
  rw [← hp] at hreport
  cases hm with
  | @glued _ rest c => exact .inl ⟨l, c, rest, rfl, (Except.error.inj hreport).symm⟩
  | number hrun =>
    obtain ⟨c, hhead, hc⟩ := hrun.head
    obtain ⟨cs, rfl⟩ := List.head?_eq_some_iff.mp hhead
    exact .inr (.inr ⟨c, cs ++ rest, _, rfl, hc, numberFault_cases _, (Except.error.inj hreport).symm⟩)
  | @text cs hcs =>
    refine .inr (.inl ⟨'\'', cs, List.append_nil _, .inl ⟨rfl, hcs⟩, (Except.error.inj hreport).symm⟩)
  | lastMark => exact .inr (.inl ⟨'!', [], rfl, .inr ⟨rfl, rfl⟩, (Except.error.inj hreport).symm⟩)
  | @mark c rest => exact .inl ⟨['!'], c, rest, rfl, (Except.error.inj hreport).symm⟩
  | @stray c rest =>
    refine .inl ⟨[], c, rest, rfl, ?_⟩
    rw [List.append_nil]
    exact (Except.error.inj hreport).symm

/-- **A scan error names the character at its place, behind a part that scans.** The source
is a part `p`, which scans, and a rest `r` that starts with a misspelt lexeme. The tokens of
`p` are those that stepping through the source gives before it gives the error. A character
that is not expected, or at which the source is left open, is the one at the place of the
error. If the source is left open, this is the first one of `r`: a quote without one that
closes it, or an exclamation mark that is all there is. A number that is none is reported at
its first digit, which `r` starts with. -/
theorem scan_error_names_character {file src : String} {e : ScanError} (h : scan file src = .error e) :
    ∃ p r body stop, src = p ++ r ∧ scan file p = .ok (body ++ [stop]) ∧ stop.kind = .eof ∧
      (Scanner.ofSource file src).steps (body.length + 1) = body.map .ok ++ [.error e] ∧
      (∃ l rest m, r.toList = l ++ rest ∧ Misspelt l rest m ∧
        Scanner.report (.after file p.toList) (.after file (p.toList ++ l)) m = .error e) ∧
      e.fault ∈ [.unexpectedChar, .unexpectedEnd, .badInt, .badFloat] ∧
      (e.fault = .unexpectedChar ∨ e.fault = .unexpectedEnd →
        ∃ c, characterAt? src.toList e.pos = some c ∧ e.codePoint = c.toNat) ∧
      (e.fault = .unexpectedEnd → e.pos = .after file p.toList ∧
        ((∃ cs, r.toList = '\'' :: cs ∧ Unclosed cs ∧ e.codePoint = '\''.toNat) ∨
          (r = "!" ∧ e.codePoint = '!'.toNat))) ∧
      (e.fault = .badInt ∨ e.fault = .badFloat → e.pos = .after file p.toList ∧
        ∃ c ∈ r.toList.head?, isAsciiDigit c) := by
  obtain ⟨ps, blanks, l, rest, hfault⟩ := scan_eq_error_iff.mp h
  have hsplit := hfault.leads.split_front rfl hfault.blank
  have hsrc : src.toList = textOf ps ++ blanks ++ (l ++ rest) := by
    rw [← hfault.leads.textOf_append, List.append_assoc]
  have hsteps := hfault.steps_eq
  rw [← length_placedTokens file ps []] at hsteps
  have hscan : scan file (String.ofList (textOf ps ++ blanks)) = .ok (tokensOf file [] ps blanks) :=
    scan_eq_ok_iff.mpr ⟨ps, blanks, by rwa [String.toList_ofList], rfl⟩
  rw [tokensOf_eq] at hscan
  refine ⟨String.ofList (textOf ps ++ blanks), String.ofList (l ++ rest), placedTokens file [] ps, _, ?_, hscan,
    rfl, hsteps, ?_⟩
  · rw [← String.ofList_append, ← hsrc, String.ofList_toList]
  rw [String.toList_ofList, String.toList_ofList, hsrc]
  obtain ⟨m, hm, hreport⟩ := hfault.fault
  refine ⟨⟨l, rest, m, rfl, hm, hreport⟩, ?_⟩
  obtain ⟨front, c, back, hchar, rfl⟩ | ⟨c, cs, hcs, hopen, rfl⟩ | ⟨c, cs, fault, hcs, hc, hkind, rfl⟩ :=
    hfault.error_cases rfl
  · refine ⟨by simp, fun _ => ⟨c, ?_, rfl⟩, nofun, nofun⟩
    rw [hchar, ← List.append_assoc]
    exact characterAt?_after file _ c back
  · rw [hcs]
    refine ⟨by simp, fun _ => ⟨c, characterAt?_after file _ c cs, rfl⟩, fun _ => ⟨rfl, ?_⟩, nofun⟩
    obtain ⟨rfl, hopen⟩ | ⟨rfl, rfl⟩ := hopen
    · exact .inl ⟨cs, rfl, hopen, rfl⟩
    · exact .inr ⟨rfl, rfl⟩
  · rw [hcs]
    refine ⟨?_, ?_, ?_, fun _ => ⟨rfl, c, rfl, hc⟩⟩
    · obtain rfl | rfl := hkind <;> simp
    · obtain rfl | rfl := hkind <;> exact nofun
    · obtain rfl | rfl := hkind <;> exact nofun

/-- A text that goes over two lines, and a letter glued to a number. -/
def gluedSource : String := "'a\nb' 1x"

theorem gluedSource_fault :
    FirstFault "in" gluedSource.toList [⟨[], "'a\nb'".toList, .literal, .text "a\nb", ""⟩] [' '] ['1'] ['x']
      ⟨.unexpectedChar, ⟨"in", 2, 5⟩, 'x'.toNat⟩ where
  leads := by
    have hquoted : Quoted "a\nb".toList "a\nb".toList :=
      .plain (by decide) (by decide) (.plain (by decide) (by decide) (.plain (by decide) (by decide) .nil))
    exact @Leads.more ⟨[], _, _, _, _⟩ " 1x".toList _ _ isSpacing_nil (.text hquoted)
      (.of_symbol (by decide) (by decide) (by simp) (by simp)) .done
  blank := isSpacing_blank
  head := by simpa using show ¬ isSpacing '1' by decide
  fault := ⟨_, .glued ⟨⟨'1', rfl, by decide⟩, List.all_eq_true.mp rfl⟩ (by decide), rfl⟩

theorem gluedSource_names_character :
    scan "in" gluedSource = .error ⟨.unexpectedChar, ⟨"in", 2, 5⟩, 'x'.toNat⟩ ∧
    ∃ c, characterAt? gluedSource.toList ⟨"in", 2, 5⟩ = some c ∧ ('x'.toNat : Int) = c.toNat := by
  have hscan := gluedSource_fault.scan_eq
  obtain ⟨-, -, -, -, -, -, -, -, -, -, hchar, -⟩ := scan_error_names_character hscan
  exact ⟨hscan, hchar (.inl rfl)⟩

/-! ### Errors that stay -/

/-- What is misspelt stays so when the text goes on, if the end of the text is not what is
wrong with it. A number at the very end is kept from going on. -/
theorem Misspelt.append {l rest later : List Char} {m : Meaning} (h : Misspelt l rest m)
    (hm : ∀ code, m ≠ .faultAtStart .unexpectedEnd code) (hlater : rest = [] → Separated later) :
    Misspelt l (rest ++ later) m := by
  cases h with
  | glued hrun hc => exact .glued hrun hc
  | number hrun hrest hnone =>
    refine .number hrun ?_ hnone
    cases rest with
    | nil =>
      intro d hd
      obtain rfl | rfl | rfl := hlater rfl d hd <;> decide
    | cons c rest => exact hrest
  | text => exact absurd rfl (hm _)
  | lastMark => exact absurd rfl (hm _)
  | mark hc => exact .mark hc
  | stray hmark hnone => exact .stray hmark hnone

/-- **A first fault stays the first one when the text goes on.** -/
theorem FirstFault.append {file : String} {cs : List Char} {ps : List Piece} {blanks l rest later : List Char}
    {e : ScanError} (h : FirstFault file cs ps blanks l rest e) (he : e.fault ≠ .unexpectedEnd)
    (hlater : Separated later) : FirstFault file (cs ++ later) ps blanks l (rest ++ later) e := by
  obtain ⟨m, hm, hreport⟩ := h.fault
  have hend : ∀ code, m ≠ .faultAtStart .unexpectedEnd code := by
    rintro code rfl
    obtain rfl := Except.error.inj hreport
    exact he rfl
  have hleads := h.leads.append fun _ => hlater
  rw [List.append_assoc, List.append_assoc] at hleads
  exact ⟨hleads, h.blank, h.head, m, hm.append hend fun _ => hlater, hreport⟩

/-- An entry that does not scan goes on only if it ends too early. -/
theorem continuation_scan {f : Failure} {e : ScanError} (hf : f.root = .scan e)
    (he : e.fault ≠ .unexpectedEnd) : continuation f = {} := by
  obtain ⟨leaf, layers, rfl⟩ := exists_wrapped f
  rw [root_wrapped] at hf
  rw [continuation_wrapped, hf]
  exact if_pos he

theorem probe_eq_of_scan_error {file src : String} {e : ScanError} (h : scan file src = .error e)
    (he : e.fault ≠ .unexpectedEnd) : probe src = {} := by
  rw [scan_inFile] at h
  cases hscan : scan "" src with
  | ok ts =>
    rw [hscan] at h
    exact absurd h nofun
  | error e' =>
    rw [hscan] at h
    obtain rfl := Except.error.inj h
    simp only [probe, parseSource, hscan]
    exact continuation_scan rfl he

/-- **An error that is not about the end of the source is there to stay.** The entry is not
continued, however the error is wrapped; and behind a blank or a newline the source may go
on as it likes, scanning it fails with the same error at the same place. -/
theorem scan_error_is_permanent {file src : String} {e : ScanError} (h : scan file src = .error e)
    (he : e.fault ≠ .unexpectedEnd) :
    (∀ f : Failure, f.root = .scan e → continuation f = { separator := "", more := false }) ∧
    probe src = { separator := "", more := false } ∧
    ∀ sep ∈ [" ", "\n"], ∀ next : String, scan file (src ++ sep ++ next) = .error e := by
  refine ⟨fun f hf => continuation_scan hf he, probe_eq_of_scan_error h he, fun sep hsep next => ?_⟩
  obtain ⟨ps, blanks, l, rest, hfault⟩ := scan_eq_error_iff.mp h
  have hlater : Separated (sep ++ next).toList := by
    rw [String.toList_append]
    obtain rfl | rfl : sep = " " ∨ sep = "\n" := by simpa using hsep
    · exact separated_blank _
    · exact separated_newline _
  have hmore := hfault.append he hlater
  rw [← String.toList_append, ← String.append_assoc] at hmore
  exact hmore.scan_eq

/-- A number that is too large, and nothing behind it. -/
theorem largeNumber_fault : FirstFault "in" "9223372036854775808".toList [] [] "9223372036854775808".toList []
    ⟨.badInt, ⟨"in", 1, 1⟩, 0⟩ where
  leads := .done
  blank := isSpacing_nil
  head := by simpa using show ¬ isSpacing '9' by decide
  fault := by
    have hrun : NumberRun "9223372036854775808".toList := ⟨⟨'9', rfl, by decide⟩, List.all_eq_true.mp rfl⟩
    have hvalue : numberValue "9223372036854775808".toList = .error .badInt := rfl
    exact ⟨_, .number hrun (by simp) ((numberValue_eq_error_iff hrun).mp hvalue).1, rfl⟩

theorem largeNumber_is_permanent : scan "in" "9223372036854775808 + 1" = .error ⟨.badInt, ⟨"in", 1, 1⟩, 0⟩ :=
  (scan_error_is_permanent largeNumber_fault.scan_eq (by decide)).2.2 " " (by simp) "+ 1"

end Pseudocode
