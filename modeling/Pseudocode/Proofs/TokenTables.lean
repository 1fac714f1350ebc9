/-
# Token tables

A table of tokens has one line for each token, and the lines tell which tokens they are.
The columns of a line are padded with blanks, and what a literal or an identifier carries
stands behind them as it is shown. Still no line holds a newline of its own
(`newline_not_mem_shown`): texts are quoted, and names have letters and digits only. The
place ends at the first blank behind it, the kind at the next one, and what is left shows
what the token carries (`shown_inj`). So of the tokens scanned under one name no two lists
have the same table (`tokenTable_inj`).

The table is written line by line. A sink that takes some texts and then fails is offered
as many lines as it takes and one more, if there is one, and that it failed is reported
exactly then (`writeTo_of_failsAfter`).

Key definitions: `Sink.FailsAfter`, `Sink.offered`, `Token.payload`, `Token.shown`,
`Token.ScannedIn`.
Key theorems: `writeTo_of_failsAfter`, `writeLines_eq`, `scannedIn_of_scan`,
`Token.ScannedIn.shown_inj`, `splitLines_tokenTable`, `tokenTable_inj`,
`token_table_is_faithful`.
-/
import Pseudocode.Proofs.FaithfulForms
import Pseudocode.Proofs.RunReport
import Pseudocode.Proofs.SpelledTokens
import Pseudocode.Text.Lines
import Pseudocode.Token.Table

namespace Pseudocode

/-! ### Writing to a sink that fails -/

section
variable {σ : Type}

/-- The sink takes the next `k` texts, whatever they are, and refuses the one after them. -/
def Sink.FailsAfter (sink : Sink σ) : Nat → σ → Prop
  | 0, s => ∀ l, (sink s l).2 = false
  | k + 1, s => ∀ l, (sink s l).2 = true ∧ sink.FailsAfter k (sink s l).1

/-- The state of a sink after it was offered texts one by one. -/
def Sink.offered (sink : Sink σ) (s : σ) (ls : List String) : σ := ls.foldl (fun s l => (sink s l).1) s

/-- **Writing stops at the first refusal**: no line is offered behind the one refused. -/
theorem writeTo_of_failsAfter (sink : Sink σ) (lines : List String) : ∀ {k : Nat} {s : σ}, sink.FailsAfter k s →
    writeTo sink lines s = (sink.offered s (lines.take (k + 1)), decide (lines.length ≤ k)) := by
  induction lines with
  | nil =>
    intro k s _
    rw [List.take_nil]
    simp [writeTo, Sink.offered]
  | cons l ls ih =>
    intro k s h
    cases k with
    | zero => simp [writeTo, h l, Sink.offered]
    | succ k =>
      obtain ⟨htaken, hnext⟩ := h l
      simp [writeTo, htaken, ih hnext, Sink.offered]

end

theorem limitedSink_failsAfter (k : Nat) (taken : List String) : limitedSink.FailsAfter k (taken, some k) := by
  induction k generalizing taken with
  | zero => simp [Sink.FailsAfter, limitedSink]
  | succ k ih => simpa [Sink.FailsAfter, limitedSink] using fun l => ih (taken ++ [l])

theorem offered_limitedSink (lines : List String) : ∀ (k : Nat) (taken : List String),
    (limitedSink.offered (taken, some k) lines).1 = taken ++ lines.take k := by
  induction lines with
  | nil => simp [Sink.offered]
  | cons l ls ih =>
    intro k taken
    cases k with
    | zero => simpa [Sink.offered, limitedSink] using ih 0 taken
    | succ k => simpa [Sink.offered, limitedSink] using ih k (taken ++ [l])

/-- With limited room the first lines are taken, and that not all were is reported. -/
theorem writeLines_eq (k : Nat) (lines : List String) :
    writeLines (some k) lines = (lines.take k, decide (lines.length ≤ k)) := by
  have hwrite := writeTo_of_failsAfter limitedSink lines (limitedSink_failsAfter k [])
  unfold writeLines
  simp only [hwrite, offered_limitedSink, List.nil_append, List.take_take]
  rw [Nat.min_eq_left (Nat.le_succ k)]

/-! ### Lines of a table -/

/-- What stands behind the kind in the line of a token. -/
def Token.payload (t : Token) : List Char :=
  match t.kind with
  | .literal => "    ".toList ++ t.value.debug.toList
  | .identifier => ' ' :: t.name.toList
  | _ => []

/-- The line of a token without its newline. -/
def Token.shown (t : Token) : List Char :=
  t.pos.text.toList ++ ' ' :: (List.replicate (8 - t.pos.text.length) ' ' ++ (t.kind.spelling.toList ++ t.payload))

theorem blanks_append_blank (n : Nat) (rest : List Char) :
    List.replicate n ' ' ++ ' ' :: rest = ' ' :: (List.replicate n ' ' ++ rest) := by
  rw [← List.singleton_append, ← List.append_assoc, ← List.replicate_succ', List.replicate_succ, List.cons_append]

theorem Token.toList_line (t : Token) : t.line.toList = t.shown ++ ['\n'] := by
  have hliteral : (padRight 10 "literal").toList = "literal   ".toList := by decide
  have hidentifier : (padRight 10 "identifier").toList = "identifier".toList := by decide
  have hplace : (padRight 8 t.pos.text).toList =
      t.pos.text.toList ++ List.replicate (8 - t.pos.text.length) ' ' := by
    simp [padRight]
  unfold line shown payload
  cases t.kind with
  | literal => simp [hplace, hliteral, blanks_append_blank, TokenKind.spelling]
  | identifier => simp [hplace, hidentifier, blanks_append_blank, TokenKind.spelling]
  | _ => simp [hplace, blanks_append_blank]

/-- A token of a known kind in a file that carries what its kind carries and nothing else. -/
structure Token.ScannedIn (file : String) (t : Token) : Prop where
  file_eq : t.pos.file = file
  kind_mem : t.kind ∈ TokenKind.vocabulary
  printable : t.kind = .literal → t.value.Printable
  value_eq : t.kind ≠ .literal → t.value = .invalid
  name_eq : t.kind ≠ .identifier → t.name = ""
  newline_not_mem_name : '\n' ∉ t.name.toList

theorem IsName.newline_not_mem {w : String} (h : IsName w) : '\n' ∉ w.toList := by
  obtain ⟨c, hhead, hc⟩ := h.head
  obtain ⟨cs, hcs⟩ := List.head?_eq_some_iff.mp hhead
  have htail := h.tail
  rw [hcs, List.tail_cons] at htail
  rw [hcs, List.mem_cons]
  rintro (rfl | hmem)
  · exact absurd (isWordChar_of_isLetter hc) (by decide)
  · exact absurd (htail _ hmem) (by decide)

theorem Token.Spellable.scannedIn {t : Token} (h : t.Spellable) : t.ScannedIn t.pos.file := by
  cases h with
  | newline => exact ⟨rfl, by simp [TokenKind.vocabulary], by simp, by simp, by simp, by simp⟩
  | fixed hk =>
    obtain ⟨hmem, hliteral, hidentifier⟩ := TokenKind.mem_vocabulary_of_fixed (mem_symbols_or_mem_keywords_iff.mp hk)
    exact ⟨rfl, hmem, fun heq => absurd heq hliteral, fun _ => rfl, fun _ => rfl, by simp⟩
  | identifier hw => exact ⟨rfl, by simp [TokenKind.vocabulary], by simp, by simp, by simp, hw.newline_not_mem⟩
  | literal hv => exact ⟨rfl, by simp [TokenKind.vocabulary], fun _ => hv, by simp, by simp, by simp⟩

theorem scannedIn_of_scan {file src : String} {ts : List Token} (h : scan file src = .ok ts) :
    ∀ t ∈ ts, t.ScannedIn file := by
  intro t ht
  have hfile : t.pos.file = file := ((scan_places file src).1 ts h t ht).file_eq
  obtain ⟨ps, w, hsplit, rfl⟩ := scan_eq_ok_iff.mp h
  have hmem := List.mem_map_of_mem (f := Token.unplaced) ht
  rw [map_unplaced_tokensOf, List.mem_append, List.mem_map, List.mem_singleton] at hmem
  rcases hmem with ⟨p, hp, heq⟩ | hstop
  · have hspells := hsplit.spells_of_mem p hp
    have hkind : p.kind = t.kind := congrArg Token.kind heq
    have hvalue : p.value = t.value := congrArg Token.value heq
    have hname : p.name = t.name := congrArg Token.name heq
    rw [hkind, hvalue, hname] at hspells
    exact hfile ▸ (Token.spellable_iff.mpr ⟨_, hspells⟩).scannedIn
  · have hkind : t.kind = .eof := congrArg Token.kind hstop
    have hvalue : t.value = .invalid := congrArg Token.value hstop
    have hname : t.name = "" := congrArg Token.name hstop
    exact ⟨hfile, by simp [hkind, TokenKind.vocabulary], by simp [hkind], fun _ => hvalue, fun _ => hname, by simp [hname]⟩

/-! ### Lines tell tokens apart -/

namespace Token

theorem payload_of_literal {t : Token} (h : t.kind = .literal) :
    t.payload = "    ".toList ++ t.value.debug.toList := by
  simp [payload, h]

theorem payload_of_identifier {t : Token} (h : t.kind = .identifier) : t.payload = ' ' :: t.name.toList := by
  simp [payload, h]

theorem payload_of_fixed {t : Token} (hliteral : t.kind ≠ .literal) (hidentifier : t.kind ≠ .identifier) :
    t.payload = [] := by
  unfold payload
  split
  · next h => exact absurd h hliteral
  · next h => exact absurd h hidentifier
  · rfl

/-- What a token carries is set off by a blank. -/
theorem head?_payload (t : Token) : ∀ c ∈ t.payload.head?, c = ' ' := by
  by_cases hliteral : t.kind = .literal
  · simp [payload_of_literal hliteral]
  · by_cases hidentifier : t.kind = .identifier
    · simp [payload_of_identifier hidentifier]
    · simp [payload_of_fixed hliteral hidentifier]

namespace ScannedIn
variable {file : String} {t t' : Token}

theorem newline_not_mem_payload (h : t.ScannedIn file) : '\n' ∉ t.payload := by
  by_cases hliteral : t.kind = .literal
  · have hdebug := Value.newline_not_mem_debug (h.printable hliteral)
    simpa [payload_of_literal hliteral] using hdebug
  · by_cases hidentifier : t.kind = .identifier
    · simpa [payload_of_identifier hidentifier] using h.newline_not_mem_name
    · simp [payload_of_fixed hliteral hidentifier]

/-- No line holds a newline of its own, if the name of the source holds none. -/
theorem newline_not_mem_shown (h : t.ScannedIn file) (hfile : '\n' ∉ file.toList) : '\n' ∉ t.shown := by
  have hplace : '\n' ∉ t.pos.text.toList := Pos.newline_not_mem_text (h.file_eq ▸ hfile)
  have hspelling := TokenKind.newline_not_mem_spelling h.kind_mem
  simp [shown, hplace, hspelling, h.newline_not_mem_payload]

/-- Tokens of one kind are told apart by what they carry. -/
theorem eq_of_payload_eq (h : t.ScannedIn file) (h' : t'.ScannedIn file) (hpos : t.pos = t'.pos)
    (hkind : t.kind = t'.kind) (hpayload : t.payload = t'.payload) : t = t' := by
  have hvalue : t.value = t'.value := by
    by_cases hliteral : t.kind = .literal
    · have hliteral' := hkind ▸ hliteral
      rw [payload_of_literal hliteral, payload_of_literal hliteral'] at hpayload
      have hdebug := String.toList_inj.mp (List.append_cancel_left hpayload)
      exact Value.debug_inj (h.printable hliteral) (h'.printable hliteral') hdebug
    · rw [h.value_eq hliteral, h'.value_eq (hkind ▸ hliteral)]
  have hname : t.name = t'.name := by
    by_cases hidentifier : t.kind = .identifier
    · rw [payload_of_identifier hidentifier, payload_of_identifier (hkind ▸ hidentifier)] at hpayload
      exact String.toList_inj.mp (List.tail_eq_of_cons_eq hpayload)
    · rw [h.name_eq hidentifier, h'.name_eq (hkind ▸ hidentifier)]
  cases t
  cases t'
  simp_all

/-- **A line is that of one token.** -/
theorem shown_inj (h : t.ScannedIn file) (h' : t'.ScannedIn file) (hshown : t.shown = t'.shown) : t = t' := by
  unfold shown at hshown
  obtain ⟨hpos, hrest⟩ := Pos.text_append_inj (h.file_eq.trans h'.file_eq.symm) hshown
  rw [hpos] at hrest
  have hword := List.append_cancel_left hrest
  -- the spelling ends at the first blank, and what is carried starts with one
  have hrun : ∀ {t : Token}, t.ScannedIn file → ∀ c ∈ t.kind.spelling.toList, (c != ' ') = true :=
    fun ht c hc => bne_iff_ne.mpr (TokenKind.not_blank_of_mem_spelling ht.kind_mem c hc).1
  have hstop : ∀ t : Token, ∀ c ∈ t.payload.head?, ¬ (c != ' ') = true := by
    intro t c hc
    simp [t.head?_payload c hc]
  obtain ⟨hspelling, hpayload⟩ := append_run_inj (hrun h) (hrun h') (hstop t) (hstop t') hword
  have hkind := TokenKind.spelling_inj h.kind_mem h'.kind_mem (String.toList_inj.mp hspelling)
  exact h.eq_of_payload_eq h' hpos hkind hpayload

end ScannedIn

end Token

/-! ### Tables -/

theorem toList_tokenTable (ts : List Token) :
    (tokenTable ts).toList = ts.flatMap fun t => t.shown ++ ['\n'] := by
  simp [tokenTable, tokenLines, List.flatMap_map, Token.toList_line]

theorem splitLines_append_newline {l : List Char} (h : '\n' ∉ l) (rest : List Char) :
    splitLines (l ++ '\n' :: rest) = l :: splitLines rest := by
  induction l with
  | nil => simp [splitLines]
  | cons c l ih =>
    rw [List.mem_cons, not_or] at h
    simp [splitLines, ih h.2, Ne.symm h.1]

section
variable {file : String} (hfile : '\n' ∉ file.toList)
include hfile

/-- A table has a line for each token and nothing behind the last. -/
theorem splitLines_tokenTable {ts : List Token} (hts : ∀ t ∈ ts, t.ScannedIn file) :
    splitLines (tokenTable ts).toList = ts.map Token.shown ++ [[]] := by
  rw [toList_tokenTable]
  induction ts with
  | nil => rfl
  | cons t ts ih =>
    have hline := (hts t (by simp)).newline_not_mem_shown hfile
    have hrest := ih fun t' ht' => hts t' (by simp [ht'])
    rw [List.flatMap_cons, List.append_assoc, List.singleton_append, splitLines_append_newline hline, hrest]
    rfl

/-- **A table is that of one list of tokens.** -/
theorem tokenTable_inj {ts ts' : List Token} (hts : ∀ t ∈ ts, t.ScannedIn file)
    (hts' : ∀ t ∈ ts', t.ScannedIn file) (h : tokenTable ts = tokenTable ts') : ts = ts' := by
  have hlines : ts.map Token.shown = ts'.map Token.shown := by
    have hsplit := splitLines_tokenTable hfile hts
    rw [h, splitLines_tokenTable hfile hts'] at hsplit
    exact (List.append_cancel_right hsplit).symm
  clear h
  induction ts generalizing ts' with
  | nil => simpa using hlines.symm
  | cons t ts ih =>
    cases ts' with
    | nil => simp at hlines
    | cons t' ts' =>
      rw [List.map_cons, List.map_cons, List.cons.injEq] at hlines
      have hhead := (hts t (by simp)).shown_inj (hts' t' (by simp)) hlines.1
      have htail := ih (fun s hs => hts s (by simp [hs])) (fun s hs => hts' s (by simp [hs])) hlines.2
      rw [hhead, htail]

end

/-- **Token tables are faithful, and writing them fails cleanly.** A sink that takes `k`
texts and then fails is offered the lines of the table one by one, up to the first it
refuses; success is reported exactly if no line is left over, and with room for `k` lines
just the first `k` are taken. A source whose name holds no newline has a table with one
line of text for each token, and no other tokens scanned under this name have it. -/
theorem token_table_is_faithful :
    (∀ {σ : Type} (sink : Sink σ) (k : Nat) (s : σ), sink.FailsAfter k s → ∀ ts : List Token,
      writeTo sink (tokenLines ts) s =
        (sink.offered s ((tokenLines ts).take (k + 1)), decide (ts.length ≤ k))) ∧
    (∀ (k : Nat) (ts : List Token),
      writeLines (some k) (tokenLines ts) = ((tokenLines ts).take k, decide (ts.length ≤ k))) ∧
    ∀ file : String, '\n' ∉ file.toList →
      (∀ src ts, scan file src = .ok ts → splitLines (tokenTable ts).toList = ts.map Token.shown ++ [[]] ∧
        ∀ t ∈ ts, t.line.toList = t.shown ++ ['\n']) ∧
      ∀ src src' ts ts', scan file src = .ok ts → scan file src' = .ok ts' →
        tokenTable ts = tokenTable ts' → ts = ts' := by
  have hlength : ∀ ts : List Token, (tokenLines ts).length = ts.length := fun ts => by simp [tokenLines]
  refine ⟨fun sink k s hsink ts => ?_, fun k ts => ?_, fun file hfile => ⟨fun src ts hscan => ?_, ?_⟩⟩
  · rw [writeTo_of_failsAfter sink _ hsink, hlength]
  · rw [writeLines_eq, hlength]
  · exact ⟨splitLines_tokenTable hfile (scannedIn_of_scan hscan), fun t _ => t.toList_line⟩
  · intro src src' ts ts' hscan hscan'
    exact tokenTable_inj hfile (scannedIn_of_scan hscan) (scannedIn_of_scan hscan')

theorem assignmentSource_table : ∃ ts, scan "in" assignmentSource = .ok ts ∧
    limitedSink.FailsAfter 2 ([], some 2) ∧ (writeTo limitedSink (tokenLines ts) ([], some 2)).2 = false ∧
    writeLines (some 2) (tokenLines ts) = ((tokenLines ts).take 2, false) ∧
    (splitLines (tokenTable ts).toList).length = 6 ∧
    ∀ src' ts', scan "in" src' = .ok ts' → tokenTable ts = tokenTable ts' → ts = ts' := by
  obtain ⟨hsink, hlines, htable⟩ := token_table_is_faithful
  have hscan : scan "in" assignmentSource = .ok (tokensOf "in" [] assignmentPieces []) :=
    scan_eq_ok_iff.mpr ⟨_, _, assignmentPieces_split, rfl⟩
  have hfails := limitedSink_failsAfter 2 []
  obtain ⟨hsplit, hunique⟩ := htable "in" (by decide)
  refine ⟨_, hscan, hfails, ?_, hlines 2 _, ?_, fun src' ts' => hunique _ src' _ ts' hscan⟩
  · rw [hsink limitedSink 2 _ hfails]
    rfl
  · rw [(hsplit _ _ hscan).1]
    rfl

end Pseudocode
