/-
# A dropped entry leaves no trace

An entry that is not finished can be dropped. All its lines are forgotten then: the session
goes on as if it had been dropped before its first line. The prompts are all that is left of
the lines, one for each (`Growing.turns_dropped`), so that two scripts that differ by the
lines of a dropped entry write the same, put the same into the history and end the same way
(`dropped_entry_leaves_no_trace`).

The lines of such an entry (`UnfinishedEntry`) keep it open (`UnfinishedEntry.growing`), and up to it
the turns do not depend on what comes behind (`Session.turns_append`).

Key definitions: `entryText`, `UnfinishedEntry`, `written`.
Key theorems: `UnfinishedEntry.growing`, `Session.turns_append`, `Growing.turns_dropped`,
`dropped_entry_leaves_no_trace`.
-/
import Pseudocode.Proofs.SessionLog

namespace Pseudocode

open Session

/-! ### The lines of an entry that is not finished -/

/-- The text of an entry: each further line stands behind the separator that the text before
it asks for. -/
def entryText (first : String) (later : List String) : String :=
  later.foldl (fun src line => src ++ (probe src).separator ++ line) first

/-- The lines are those of an entry that still goes on. -/
structure UnfinishedEntry (first : String) (later : List String) : Prop where
  first_not_blank : isBlankText first = false
  first_not_command : isCommand first = false
  later_not_blank : ∀ line ∈ later, isBlankText line = false
  /-- After each of the lines the entry goes on. -/
  more : ∀ part, part <+: later → (probe (entryText first part)).more = true

theorem isBlankText_append {s : String} (h : isBlankText s = false) (t : String) :
    isBlankText (s ++ t) = false := by
  rw [Bool.eq_false_iff, ne_eq, isBlankText_iff, List.dropWhile_eq_nil_iff] at h ⊢
  rw [String.toList_append]
  exact fun hall => h fun c hc => hall c (List.mem_append_left _ hc)

theorem isBlankText_entryText {first : String} (h : isBlankText first = false) :
    ∀ later : List String, isBlankText (entryText first later) = false
  | [] => h
  | line :: later => by
    have hnext : isBlankText (first ++ (probe first).separator ++ line) = false := by
      rw [String.append_assoc]
      exact isBlankText_append h _
    exact isBlankText_entryText hnext later

theorem entryText_concat (first : String) (later : List String) (line : String) :
    entryText first (later ++ [line]) = joined (some (entryText first later)) line := by
  simp only [entryText, List.foldl_append, List.foldl_cons, List.foldl_nil, joined]

/-- Such lines leave an entry open. The induction takes the last line away, as entries grow at
their end. -/
theorem UnfinishedEntry.growing {first : String} {later : List String} (h : UnfinishedEntry first later) :
    Growing ((first :: later).map .line) (some (entryText first later)) := by
  induction later using List.reverseRecOn with
  | nil =>
    have hfirst : Growing ([] ++ [.line first]) (some (joined none first)) :=
      .line .nothing h.first_not_command ⟨h.first_not_blank, h.more [] List.nil_prefix⟩
    exact hfirst
  | append_singleton later line ih =>
    have hlater : UnfinishedEntry first later :=
      ⟨h.first_not_blank, h.first_not_command, fun l hl => h.later_not_blank l (by simp [hl]),
        fun part hpart => h.more part (hpart.trans (List.prefix_append _ _))⟩
    have hmore := h.more _ List.prefix_rfl
    rw [entryText_concat] at hmore ⊢
    have hblank : isBlankText (joined (some (entryText first later)) line) = false := by
      rw [← entryText_concat]
      exact isBlankText_entryText h.first_not_blank _
    have hline : Growing ((first :: later).map .line ++ [.line line]) _ :=
      .line (ih hlater) (h.later_not_blank line (by simp)) ⟨hblank, hmore⟩
    simpa using hline

/-! ### The turns around it -/

/-- **What a session did so far does not depend on the answers to come.** -/
theorem Session.turns_append : ∀ (as : List Answer) {s next : Session}, s.after as = some next →
    ∀ before : Output, ∃ shown o, ∀ rest,
      s.turns before (as ++ rest) = (shown ++ (next.turns o rest).1, (next.turns o rest).2)
  | [], s, _, h, before => by
    obtain rfl : s = _ := Option.some.inj h
    exact ⟨[], before, fun _ => rfl⟩
  | a :: as, s, next, h, before => by
    rw [after] at h
    rcases hanswer : s.answer a with ⟨o, middle | error?⟩
    · rw [hanswer] at h
      obtain ⟨shown, o', hshown⟩ := turns_append as h o
      refine ⟨⟨before, some s.prompt⟩ :: shown, o', fun rest => ?_⟩
      rw [List.cons_append, turns_cons, hanswer, proceed, hshown, List.cons_append]
    · rw [hanswer] at h
      exact absurd h (by simp)

theorem Session.holding_none {s : Session} (h : s.entry? = none) : s.holding none = s := by
  rw [holding, ← h]

/-- Dropping an open entry costs a prompt for each of its answers, and nothing else. -/
theorem Growing.turns_dropped {as : List Answer} {held? : Option String} (h : Growing as held?)
    {s : Session} (hs : s.entry? = none) (before : Output) (rest : List Answer) :
    s.turns before (as ++ .abort :: rest) =
      (⟨before, some s.console.settings.prompt⟩ :: List.replicate as.length ⟨{}, some "... "⟩ ++
        (s.turns {} rest).1, (s.turns {} rest).2) := by
  have hturns := (IsEntry.dropped h).turns_eq s before rest
  rw [holding_none hs, promptTurns_length (by simp), close, holding_none hs, proceed] at hturns
  simpa using hturns

/-- The turns of a session in which an open entry is dropped are the same for all such
entries, but for the prompts. -/
theorem exists_turns_dropped {c : Console} {front : List Answer} {s : Session}
    (hfront : (start c).after front = some s) (hmain : s.entry? = none) (rest : List Answer) :
    ∃ shown turns error?, ∀ as held?, Growing as held? → transcript c (front ++ as ++ .abort :: rest) =
      (shown ++ List.replicate as.length ⟨{}, some "... "⟩ ++ turns, error?) := by
  obtain ⟨shown, o, hshown⟩ := turns_append front hfront (start c).greeting
  let tail := s.turns {} (rest ++ [.endOfInput, .endOfInput])
  refine ⟨shown ++ [⟨o, some s.console.settings.prompt⟩], tail.1, tail.2, fun as held? h => ?_⟩
  rw [transcript, List.append_assoc, List.append_assoc, List.append_assoc, hshown, List.cons_append,
    h.turns_dropped hmain]
  simp [tail]

/-! ### What is written -/

/-- What is written in some turns: to standard output, to standard error and to the history. -/
def written (turns : List Turn) : Output := .concat (turns.map Turn.output)

theorem written_cons (t : Turn) (ts : List Turn) : written (t :: ts) = t.output ++ written ts := rfl

/-- Turns that only prompt write nothing. -/
theorem written_silent (later : List Turn) (p? : Option String) (n : Nat) :
    ∀ shown : List Turn,
      written (shown ++ List.replicate n ⟨{}, p?⟩ ++ later) = written (shown ++ later)
  | [] => by
    induction n with
    | zero => rfl
    | succ n ih =>
      rw [List.replicate_succ, List.nil_append, List.cons_append, written_cons, Output.empty_append]
      exact ih
  | t :: shown => by
    rw [List.cons_append, List.cons_append, written_cons, written_silent later p? n shown]
    rfl

/-- **A dropped entry leaves no trace.** Up to some answers the session has not ended, and it
prompts for a new entry. If an entry is begun then and dropped before it is finished, the
session writes the same, has the same history and ends the same way as if nothing had been
entered before it was dropped. There is a prompt more for each line of the entry, and all
other turns are the same. -/
theorem dropped_entry_leaves_no_trace {c : Console} {front : List Answer} {s : Session}
    (hfront : (start c).after front = some s) (hmain : s.entry? = none) {first : String}
    {later : List String} (hlines : UnfinishedEntry first later) (rest : List Answer) :
    let lines := (first :: later).map Answer.line
    let entered := transcript c (front ++ lines ++ .abort :: rest)
    let plain := transcript c (front ++ .abort :: rest)
    written entered.1 = written plain.1 ∧ entered.2 = plain.2 ∧
      ∃ shown turns, entered.1 = shown ++ List.replicate lines.length ⟨{}, some "... "⟩ ++ turns ∧
        plain.1 = shown ++ turns := by
  intro lines entered plain
  obtain ⟨shown, turns, error?, hturns⟩ := exists_turns_dropped hfront hmain rest
  have hentered : entered = _ := hturns lines _ hlines.growing
  have hplain : plain = (shown ++ turns, error?) := by
    simpa [plain] using hturns [] none .nothing
  rw [hentered, hplain]
  exact ⟨written_silent _ _ _ _, rfl, shown, turns, rfl, rfl⟩

theorem probe_openPieces : probe "(1 +" = ⟨" ", true⟩ :=
  probe_of_parse_error (scan_eq_ok_iff.mpr ⟨_, _, openPieces_split, rfl⟩) rfl

/-- The lines `(1 +` and `'a`: after the first an operand is missing, and the second begins a
text. -/
theorem openText_unfinished : UnfinishedEntry "(1 +" ["'a"] where
  first_not_blank := by decide
  first_not_command := by decide
  later_not_blank := by decide
  more := by
    have hbreak : BreaksOff "(1 + 'a".toList openPieces .literal :=
      ⟨[' '], ['\'', 'a'], openPieces_split.leads_joined "'a", isSpacing_blank,
        .text (Quoted.nil.plain (by decide) (by decide))⟩
    have htext : entryText "(1 +" ["'a"] = "(1 + 'a" := by simp [entryText, probe_openPieces]
    intro part hpart
    rcases List.prefix_cons_iff.mp hpart with rfl | ⟨part, rfl, hpart'⟩
    · exact congrArg Continuation.more probe_openPieces
    · rw [List.prefix_nil.mp hpart', htext, probe_of_breaksOff hbreak]

/-- With the tokens traced, two lines are entered and dropped, and another entry is run. -/
theorem openText_leaves_no_trace : ∃ s, (start {}).after [.line ":tokens"] = some s ∧ s.entry? = none ∧
    UnfinishedEntry "(1 +" ["'a"] ∧
    written (transcript {} [.line ":tokens", .line "(1 +", .line "'a", .abort, .line "2"]).1 =
      written (transcript {} [.line ":tokens", .abort, .line "2"]).1 := by
  have hfront : (start {}).after [.line ":tokens"] =
      some { console := {}, traceTokens := true, traceTree := false } := rfl
  exact ⟨_, hfront, rfl, openText_unfinished,
    (dropped_entry_leaves_no_trace hfront rfl openText_unfinished [.line "2"]).1⟩

end Pseudocode
