/-
# A session is the log of its entries

A session takes the answers of its script entry by entry, and writes the log of the entries
(`session_is_log_of_entries`). It looks at the answers in order, at each once, and at no
more than two ends of the input. What it writes for an entry depends on the entry and the
two switches (`SessionEntry.Writes`), and a switch depends on how often it was turned
(`flipped`), so that after its entries the session is known (`sessionAfter`).

One step of the proof is one entry (`IsEntry.close_cases`), and the induction over the
script finds one entry after the other (`exists_closes`). All that is said of a whole
session follows by induction over its entries.

Key definitions: `SessionEntry`, `SessionEntry.Writes`, `sessionAfter`, `Logged`, `turnsOf`,
`SessionLog`.
Key theorems: `IsEntry.close_cases`, `exists_closes`, `Closes.turns_eq`, `Closes.after_eq`,
`session_is_log_of_entries`.
-/
import Pseudocode.Proofs.SessionEntries

namespace Pseudocode

open Session

/-! ### The entries of a session -/

/-- An entry of a session: its answers, how it is closed, and what is written then. -/
structure SessionEntry where
  answers : List Answer
  closing : Closing
  output : Output
deriving Repr

/-- The commands that end a session. -/
def quitWords : List String := [":quit", ":q", ":exit"]

namespace SessionEntry

/-- The text that an entry submits, if it is not blank. -/
def submitted? (e : SessionEntry) : Option String :=
  match e.closing with
  | .submitted src => if isBlankText src then none else some src
  | _ => none

/-- The command that an entry is, if it is one. -/
def command? (e : SessionEntry) : Option String := commandOf e.answers

/-- The error that an entry ends the session with, if it does. -/
def error? (e : SessionEntry) : Option String :=
  match e.closing with
  | .failed message => some message
  | _ => none

/-- An entry ends the session. -/
def Ends (e : SessionEntry) : Prop :=
  e.closing = .finished ∨ (∃ message, e.closing = .failed message) ∨
    ∃ word ∈ quitWords, e.command? = some word

end SessionEntry

/-- A switch that was turned by each of some entries that is the command `word`. -/
def flipped (switch : Bool) (word : String) (es : List SessionEntry) : Bool :=
  switch ^^ (es.countP (·.command? = some word) % 2 == 1)

/-- The session on a console after entries. -/
def sessionAfter (c : Console) (done : List SessionEntry) : Session :=
  { console := c
    traceTokens := flipped c.settings.traceTokens ":tokens" done
    traceTree := flipped c.settings.traceAst ":ast" done }

/-- **What an entry writes.** It is put into the history if it submits a text. A command is
obeyed. Any other text is run: what is traced and logged of the run, and then either the
value or the diagnostic. -/
inductive SessionEntry.Writes (c : Console) (done : List SessionEntry) (e : SessionEntry) : Prop where
  | command {src word : String} : e.submitted? = some src → e.command? = some word →
      e.output = { history := [src] } ++ ((sessionAfter c done).command word).1 → e.Writes c done
  | value {src : String} {v : Value} : e.submitted? = some src → e.command? = none →
      (runSource "" src).outcome = .ok v →
      e.output = { history := [src] } ++
        (c.showEvents "" (sessionAfter c done).trace (runSource "" src).events ++
          .line (c.styles.render .value v.display)) → e.Writes c done
  | failure {src : String} {stage : Stage} {f : Failure} : e.submitted? = some src → e.command? = none →
      (runSource "" src).outcome = .error (.staged stage f) →
      e.output = { history := [src] } ++
        (c.showEvents "" (sessionAfter c done).trace (runSource "" src).events ++
          .errorLine (c.diagnostic "" stage f.message)) → e.Writes c done
  | farewell : e.closing = .finished → e.command? = none → e.output = .line "" → e.Writes c done
  | nothing : e.submitted? = none → e.command? = none → e.closing ≠ .finished → e.output = {} →
      e.Writes c done

theorem sessionAfter_console (c : Console) (done : List SessionEntry) : (sessionAfter c done).console = c := rfl

theorem sessionAfter_holding (c : Console) (done : List SessionEntry) :
    (sessionAfter c done).holding none = sessionAfter c done := rfl

theorem flipped_append (switch : Bool) (word : String) (es : List SessionEntry) (e : SessionEntry) :
    flipped switch word (es ++ [e]) = (flipped switch word es ^^ decide (e.command? = some word)) := by
  have hparity := Nat.mod_two_eq_zero_or_one (es.countP (·.command? = some word))
  by_cases h : e.command? = some word
  · rcases hparity with hp | hp <;> simp [flipped, h, Nat.add_mod, hp]
  · simp [flipped, h]

theorem sessionAfter_append (c : Console) (done : List SessionEntry) (e : SessionEntry) :
    sessionAfter c (done ++ [e]) =
      { sessionAfter c done with
        traceTokens := (sessionAfter c done).traceTokens ^^ decide (e.command? = some ":tokens")
        traceTree := (sessionAfter c done).traceTree ^^ decide (e.command? = some ":ast") } := by
  simp [sessionAfter, flipped_append]

theorem sessionAfter_append_of_none {e : SessionEntry} (h : e.command? = none) (c : Console)
    (done : List SessionEntry) : sessionAfter c (done ++ [e]) = sessionAfter c done := by
  rw [sessionAfter_append, h]
  simp

theorem Session.command_progress (s : Session) (word : String) : (s.command word).2 =
    if word ∈ quitWords then .ends none
    else .goesOn { s with
      traceTokens := s.traceTokens ^^ decide (word = ":tokens")
      traceTree := s.traceTree ^^ decide (word = ":ast") } := by
  unfold Session.command
  split <;> simp_all [quitWords]

theorem Session.command_history (s : Session) (word : String) : (s.command word).1.history = [] := by
  unfold Session.command
  split <;> rfl

theorem Run.exists_stage_of_error {α : Type} {stage : Stage} {events : α → List Event}
    {result : Except Failure α} {f : Failure} (h : (Run.ofStage stage events result).outcome = .error f) :
    ∃ inner, f = .staged stage inner := by
  cases result with
  | ok a => simp [Run.ofStage] at h
  | error e =>
    simp only [Run.ofStage, Except.error.injEq] at h
    exact ⟨e, h.symm⟩

theorem Run.error_of_andThen {α β : Type} {r : Run α} {g : α → Run β} {f : Failure}
    (h : (r.andThen g).outcome = .error f) : r.outcome = .error f ∨ ∃ a, (g a).outcome = .error f := by
  cases hr : r.outcome with
  | error e => exact .inl (by simpa [Run.andThen, hr] using h)
  | ok a => exact .inr ⟨a, by simpa [Run.andThen, hr] using h⟩

/-- A run fails in one of its stages. -/
theorem exists_stage_of_error {file src : String} {f : Failure} (h : (runSource file src).outcome = .error f) :
    ∃ stage inner, f = .staged stage inner := by
  obtain hfront | ⟨x, heval⟩ := Run.error_of_andThen h
  · obtain hscan | ⟨ts, hparse⟩ := Run.error_of_andThen hfront
    · exact ⟨_, Run.exists_stage_of_error hscan⟩
    · exact ⟨_, Run.exists_stage_of_error hparse⟩
  · exact ⟨_, Run.exists_stage_of_error heval⟩

/-- Running a text writes the value or the diagnostic. A failure without a stage, which
would be shown in another way, does not arise. -/
theorem writes_of_evaluate {e : SessionEntry} {src : String} {c : Console} {done : List SessionEntry}
    (hsrc : e.submitted? = some src) (hcommand : e.command? = none)
    (hout : e.output = { history := [src] } ++ (sessionAfter c done).evaluate src) : e.Writes c done := by
  cases hrun : (runSource "" src).outcome with
  | ok v => exact .value hsrc hcommand hrun (by rw [hout, evaluate, Console.showRun, hrun]; rfl)
  | error f =>
    obtain ⟨stage, inner, rfl⟩ := exists_stage_of_error hrun
    exact .failure hsrc hcommand hrun (by rw [hout, evaluate, Console.showRun, hrun]; rfl)

/-- An entry that is no command and is submitted or dropped leaves the session as it was. -/
theorem SessionEntry.stays {e : SessionEntry} (hcommand : e.command? = none) (hfinished : e.closing ≠ .finished)
    (hfailed : ∀ message, e.closing ≠ .failed message) (c : Console) (done : List SessionEntry) :
    ¬ e.Ends ∧ Progress.goesOn (sessionAfter c done) = .goesOn (sessionAfter c (done ++ [e])) := by
  refine ⟨?_, by rw [sessionAfter_append_of_none hcommand]⟩
  rintro (h | ⟨message, h⟩ | ⟨word, -, h⟩)
  · exact hfinished h
  · exact hfailed message h
  · simp [hcommand] at h

theorem not_isCommand_of_isBlankText {src : String} (h : isBlankText src = true) : isCommand src = false := by
  rw [Bool.eq_false_iff, ne_eq, isCommand_iff, isBlankText_iff.mp h]
  simp

/-- **When an entry is closed it writes what it has to, and the session goes on with the
switches as they are counted, or ends.** -/
theorem IsEntry.close_cases {e : SessionEntry} (h : IsEntry e.answers e.closing) (c : Console)
    (done : List SessionEntry) (hout : e.output = ((sessionAfter c done).close e.closing).1) :
    e.Writes c done ∧
      ((e.Ends ∧ ((sessionAfter c done).close e.closing).2 = .ends e.error?) ∨
        (¬ e.Ends ∧ ((sessionAfter c done).close e.closing).2 = .goesOn (sessionAfter c (done ++ [e])))) := by
  have hcommand : e.command? = e.closing.command? := h.commandOf_eq
  obtain ⟨as, r, o⟩ := e
  cases r with
  | submitted src =>
    simp only [close, submit, Closing.command?] at hout hcommand ⊢
    by_cases hblank : isBlankText src = true
    · have hnone : isCommand src = false := not_isCommand_of_isBlankText hblank
      simp only [hblank, hnone, if_true, Bool.false_eq_true, if_false] at hout hcommand ⊢
      exact ⟨.nothing (by simp [SessionEntry.submitted?, hblank]) hcommand (by simp) hout,
        .inr (SessionEntry.stays hcommand (by simp) (by simp) c done)⟩
    have hsrc : SessionEntry.submitted? ⟨as, .submitted src, o⟩ = some src := by
      simp [SessionEntry.submitted?, hblank]
    by_cases hcolon : isCommand src = true
    · simp only [hblank, hcolon, if_true, Bool.false_eq_true, if_false] at hout hcommand ⊢
      have hends : SessionEntry.Ends ⟨as, .submitted src, o⟩ ↔ trimmed src ∈ quitWords := by
        simp [SessionEntry.Ends, hcommand]
      have hprogress := (sessionAfter c done).command_progress (trimmed src)
      refine ⟨.command hsrc hcommand hout, ?_⟩
      by_cases hquit : trimmed src ∈ quitWords
      · rw [if_pos hquit] at hprogress
        exact .inl ⟨hends.mpr hquit, hprogress⟩
      · rw [if_neg hquit] at hprogress
        refine .inr ⟨mt hends.mp hquit, hprogress.trans ?_⟩
        simp [sessionAfter_append, hcommand]
    · simp only [hblank, hcolon, Bool.false_eq_true, if_false] at hout hcommand ⊢
      exact ⟨writes_of_evaluate hsrc hcommand hout,
        .inr (SessionEntry.stays hcommand (by simp) (by simp) c done)⟩
  | dropped =>
    exact ⟨.nothing rfl hcommand (by simp) hout,
      .inr (SessionEntry.stays hcommand (by simp) (by simp) c done)⟩
  | finished => exact ⟨.farewell rfl hcommand hout, .inl ⟨.inl rfl, rfl⟩⟩
  | failed message => exact ⟨.nothing rfl hcommand (by simp) hout, .inl ⟨.inr (.inl ⟨message, rfl⟩), rfl⟩⟩

/-! ### From the entries to the turns -/

/-- The entries come one after the other, after those that are done. Each writes what it
has to, and the last one and no other ends the session. -/
inductive Logged (c : Console) : List SessionEntry → List SessionEntry → Prop where
  | last {done : List SessionEntry} {e : SessionEntry} : IsEntry e.answers e.closing → e.Writes c done →
      e.Ends → Logged c done [e]
  | more {done es : List SessionEntry} {e : SessionEntry} : IsEntry e.answers e.closing → e.Writes c done →
      ¬ e.Ends → Logged c (done ++ [e]) es → Logged c done (e :: es)

/-- The session closes the entries one after the other, after those that are done. -/
inductive Closes (c : Console) : List SessionEntry → List SessionEntry → Prop where
  | last {done : List SessionEntry} {e : SessionEntry} : IsEntry e.answers e.closing →
      (sessionAfter c done).close e.closing = (e.output, .ends e.error?) → Closes c done [e]
  | more {done es : List SessionEntry} {e : SessionEntry} : IsEntry e.answers e.closing →
      (sessionAfter c done).close e.closing = (e.output, .goesOn (sessionAfter c (done ++ [e]))) →
        Closes c (done ++ [e]) es → Closes c done (e :: es)

/-- The turns of entries, where `before` was written before the first of them. -/
def turnsOf (c : Console) (before : Output) : List SessionEntry → List Turn
  | [] => [⟨before, none⟩]
  | e :: es => ⟨before, some c.settings.prompt⟩ ::
      (List.replicate (e.answers.length - 1) ⟨{}, some "... "⟩ ++ turnsOf c e.output es)

/-- An entry is the last one, or the session goes on behind it. -/
theorem IsEntry.closes {as : List Answer} {r : Closing} (h : IsEntry as r) (c : Console)
    (done : List SessionEntry) : ∃ e : SessionEntry, e.answers = as ∧
      (Closes c done [e] ∨ ∀ es, Closes c (done ++ [e]) es → Closes c done (e :: es)) := by
  let e : SessionEntry := ⟨as, r, ((sessionAfter c done).close r).1⟩
  refine ⟨e, rfl, ?_⟩
  obtain ⟨-, ⟨-, hends⟩ | ⟨-, hgoes⟩⟩ := IsEntry.close_cases (e := e) h c done rfl
  · exact .inl (.last h (Prod.ext rfl hends))
  · exact .inr fun es hes => .more h (Prod.ext rfl hgoes) hes

/-- **Every script falls into entries up to one that ends the session.** The induction is on
the answers that are left; at their end the input ends once to close an open entry, and once
more. -/
theorem exists_closes (c : Console) : ∀ (script part : List Answer) (held? : Option String)
    (done : List SessionEntry), Growing part held? → ∃ es, Closes c done es ∧
      es.flatMap SessionEntry.answers <+: part ++ (script ++ [.endOfInput, .endOfInput])
  | [], part, none, done, h => by
    obtain rfl := h.eq_nil
    exact ⟨[⟨[.endOfInput], .finished, .line ""⟩], .last .finished rfl, by simp⟩
  | [], part, some src, done, h => by
    obtain ⟨e, he, hlast | hmore⟩ := (IsEntry.cut h).closes c done
    · exact ⟨[e], hlast, by simp [he]⟩
    · have hend : Closes c (done ++ [e]) [⟨[.endOfInput], .finished, .line ""⟩] := .last .finished rfl
      exact ⟨_, hmore _ hend, by simp [he]⟩
  | a :: script, part, held?, done, h => by
    have happ : part ++ (a :: script ++ [.endOfInput, .endOfInput]) =
        part ++ [a] ++ (script ++ [.endOfInput, .endOfInput]) := by simp
    rw [happ]
    obtain ⟨src, hopen⟩ | ⟨r, hentry⟩ := h.next a
    · exact exists_closes c script (part ++ [a]) (some src) done hopen
    · obtain ⟨e, he, hlast | hmore⟩ := hentry.closes c done
      · exact ⟨[e], hlast, by simp [he]⟩
      · obtain ⟨es, hes, htaken⟩ := exists_closes c script [] none (done ++ [e]) .nothing
        refine ⟨e :: es, hmore es hes, ?_⟩
        rw [List.flatMap_cons, he]
        exact (List.prefix_append_right_inj _).mpr htaken

/-- The error that a session with such entries ends with. -/
def lastError (es : List SessionEntry) : Option String := es.getLast?.bind SessionEntry.error?

theorem Closes.ne_nil {c : Console} {done es : List SessionEntry} (h : Closes c done es) : es ≠ [] := by
  cases h <;> simp

theorem Closes.lastError_cons {c : Console} {done es : List SessionEntry} (h : Closes c done es)
    (e : SessionEntry) : lastError (e :: es) = lastError es := by
  obtain ⟨e', es, rfl⟩ := List.exists_cons_of_ne_nil h.ne_nil
  simp [lastError]

/-- **A session has the turns of its entries**, whatever answers there are behind them. -/
theorem Closes.turns_eq {c : Console} {done es : List SessionEntry} (h : Closes c done es) :
    ∀ (before : Output) (rest : List Answer),
      (sessionAfter c done).turns before (es.flatMap SessionEntry.answers ++ rest) =
        (turnsOf c before es, lastError es) := by
  induction h with
  | @last done e hentry hclose =>
    intro before rest
    have hturns := hentry.turns_eq (sessionAfter c done) before rest
    rw [hclose, sessionAfter_console, promptTurns_length hentry.ne_nil, sessionAfter_holding] at hturns
    simpa [proceed, turnsOf, lastError] using hturns
  | @more done es e hentry hclose hes ih =>
    intro before rest
    have hturns := hentry.turns_eq (sessionAfter c done) before (es.flatMap SessionEntry.answers ++ rest)
    rw [hclose, sessionAfter_console, promptTurns_length hentry.ne_nil, sessionAfter_holding, proceed,
      ih] at hturns
    rw [hes.lastError_cons, List.flatMap_cons, List.append_assoc]
    exact hturns

theorem Closes.logged {c : Console} {done es : List SessionEntry} (h : Closes c done es) : Logged c done es := by
  induction h with
  | @last done e hentry hclose =>
    obtain ⟨hwrites, ⟨hends, -⟩ | ⟨-, hgoes⟩⟩ := hentry.close_cases c done (by rw [hclose])
    · exact .last hentry hwrites hends
    · simp [hclose] at hgoes
  | @more done es e hentry hclose _ ih =>
    obtain ⟨hwrites, ⟨-, hends⟩ | ⟨hgoes, -⟩⟩ := hentry.close_cases c done (by rw [hclose])
    · simp [hclose] at hends
    · exact .more hentry hwrites hgoes ih

/-- Before every prompt the session is where the entries closed so far have put it. -/
theorem Closes.after_eq {c : Console} : ∀ {before done later : List SessionEntry} {e : SessionEntry},
    Closes c done (before ++ e :: later) → ∀ {part : List Answer} {held? : Option String},
      Growing part held? → (sessionAfter c done).after (before.flatMap SessionEntry.answers ++ part) =
        some ((sessionAfter c (done ++ before)).holding held?)
  | [], done, later, e, _, part, held?, hpart => by
    have hafter := hpart.after_eq (sessionAfter c done)
    rw [sessionAfter_holding] at hafter
    simpa using hafter
  | e' :: before, done, later, e, h, part, held?, hpart => by
    rw [List.cons_append] at h
    -- another entry follows, so the first one is not the last
    generalize hes : before ++ e :: later = es at h
    cases h with
    | last => simp at hes
    | more hentry hclose htail =>
      subst hes
      have hafter := hentry.after_eq hclose
      rw [sessionAfter_holding] at hafter
      have hlater := htail.after_eq hpart
      rw [List.append_assoc, List.singleton_append] at hlater
      rw [List.flatMap_cons, List.append_assoc, after_append, hafter, Option.bind_some, hlater]

/-! ### History and errors -/

theorem Output.empty_append (o : Output) : ({} : Output) ++ o = o := by
  change Output.mk ("" ++ o.out) ("" ++ o.err) ([] ++ o.history) = o
  rw [String.empty_append, String.empty_append, List.nil_append]

theorem Output.history_append (a b : Output) : (a ++ b).history = a.history ++ b.history := rfl

theorem Output.history_concat (os : List Output) : (Output.concat os).history = os.flatMap Output.history := by
  induction os with
  | nil => rfl
  | cons o os ih => rw [List.flatMap_cons, ← ih]; rfl

theorem Console.history_log (c : Console) (r : Record) : (c.log r).history = [] := by
  unfold Console.log
  split <;> rfl

/-- Nothing that a run shows goes into the history. -/
theorem Console.history_showEvents (c : Console) (file : String) (t : Trace) (es : List Event) :
    (c.showEvents file t es).history = [] := by
  have hlog : ∀ r? : Option Record, ((r?.map c.log).getD {}).history = [] := by
    intro r?
    cases r? with
    | none => rfl
    | some r => exact c.history_log r
  have hevent : ∀ e : Event, (c.showEvent file t e).history = [] := by
    intro e
    cases e with
    | tokens ts =>
      simp only [showEvent, Output.history_append, hlog, List.nil_append]
      unfold showTokens
      split <;> rfl
    | tree x =>
      simp only [showEvent, Output.history_append, hlog, List.nil_append]
      unfold showTree
      split <;> rfl
    | _ => simp only [showEvent, hlog]
  rw [showEvents, Output.history_concat, List.flatMap_eq_nil_iff]
  rintro o ho
  obtain ⟨e, -, rfl⟩ := List.mem_map.mp ho
  exact hevent e

theorem SessionEntry.Writes.history_eq {c : Console} {done : List SessionEntry} {e : SessionEntry}
    (h : e.Writes c done) : e.output.history = e.submitted?.toList := by
  cases h with
  | command hsrc _ hout => simp [hsrc, hout, Output.history_append, command_history]
  | value hsrc _ _ hout | failure hsrc _ _ hout =>
    simp [hsrc, hout, Output.history_append, Console.history_showEvents, Output.line, Output.errorLine]
  | farewell hclosing _ hout => simp [hout, Output.line, submitted?, hclosing]
  | nothing hnone _ _ hout => simp [hnone, hout]

theorem Logged.history_eq {c : Console} {done es : List SessionEntry} (h : Logged c done es) :
    es.flatMap (·.output.history) = es.filterMap SessionEntry.submitted? := by
  rw [List.filterMap_eq_flatMap_toList]
  induction h with
  | last _ hwrites _ => simp [hwrites.history_eq]
  | more _ hwrites _ _ ih => rw [List.flatMap_cons, List.flatMap_cons, hwrites.history_eq, ih]

theorem flatMap_history_turnsOf (c : Console) : ∀ (es : List SessionEntry) (before : Output),
    (turnsOf c before es).flatMap (·.output.history) = before.history ++ es.flatMap (·.output.history)
  | [], before => by simp [turnsOf]
  | e :: es, before => by
    simp [turnsOf, flatMap_history_turnsOf c es]

/-- A prompt is shown for every answer that is taken. -/
theorem Logged.length_prompts {c : Console} {done es : List SessionEntry} (h : Logged c done es) :
    ∀ before : Output, ((turnsOf c before es).filterMap Turn.prompt?).length =
      (es.flatMap SessionEntry.answers).length := by
  have hprompts : ∀ n, (List.replicate n (⟨{}, some "... "⟩ : Turn)).filterMap Turn.prompt? =
      List.replicate n "... " := fun _ => List.filterMap_replicate_of_some (f := Turn.prompt?) rfl
  have hpos : ∀ {as : List Answer} {r : Closing}, IsEntry as r → as.length - 1 + 1 = as.length :=
    fun hentry => Nat.sub_add_cancel (List.length_pos_of_ne_nil hentry.ne_nil)
  induction h with
  | last hentry _ _ =>
    intro before
    simp [turnsOf, hprompts, hpos hentry]
  | more hentry _ _ _ ih =>
    intro before
    have hentry := hpos hentry
    simp only [turnsOf, List.filterMap_cons, List.filterMap_append, hprompts, List.length_cons,
      List.length_append, List.length_replicate, ih, List.flatMap_cons]
    omega

theorem Closes.flatMap_ne_nil {c : Console} {done es : List SessionEntry} (h : Closes c done es) :
    es.flatMap SessionEntry.answers ≠ [] := by
  cases h with
  | last hentry _ | more hentry _ _ => simp [hentry.ne_nil]

/-- A session ends with an error exactly if a failure is the last answer it takes. -/
theorem Closes.lastError_eq_some_iff {c : Console} {done es : List SessionEntry} (h : Closes c done es)
    (message : String) : lastError es = some message ↔
      (es.flatMap SessionEntry.answers).getLast? = some (.failure message) := by
  induction h with
  | @last done e hentry _ =>
    have hfailed : e.error? = some message ↔ e.closing = .failed message := by
      unfold SessionEntry.error?
      split <;> simp_all
    simpa [lastError, hfailed] using hentry.closing_eq_failed_iff message
  | @more done es e hentry _ hes ih =>
    rw [hes.lastError_cons, List.flatMap_cons, List.getLast?_append_of_ne_nil _ hes.flatMap_ne_nil]
    exact ih

/-! ### Whole sessions -/

/-- The session on a console with the answers of a script, and then the input at its end, is
the log of the entries. -/
structure SessionLog (c : Console) (script : List Answer) (es : List SessionEntry) : Prop where
  /-- The answers of the entries are taken in order, each once. -/
  taken : es.flatMap SessionEntry.answers <+: script ++ [.endOfInput, .endOfInput]
  /-- The entries are whole, write what they have to, and only the last one ends the session. -/
  logged : Logged c [] es
  turns : (transcript c script).1 = turnsOf c (start c).greeting es
  /-- No answer behind them is looked at. -/
  ended : ∀ later, (start c).turns (start c).greeting (script ++ [.endOfInput, .endOfInput] ++ later) =
    transcript c script
  /-- There is a prompt for each of them, -/
  prompts : ((transcript c script).1.filterMap Turn.prompt?).length = (es.flatMap SessionEntry.answers).length
  /-- and at most two prompts more than the script has answers. -/
  bound : ((transcript c script).1.filterMap Turn.prompt?).length ≤ script.length + 2
  error : ∀ message, (transcript c script).2 = some message ↔
    (es.flatMap SessionEntry.answers).getLast? = some (.failure message)
  history : (transcript c script).1.flatMap (·.output.history) = es.filterMap SessionEntry.submitted?
  /-- Before every prompt the switches are turned as often as they were by the entries closed
  before it. -/
  switches : ∀ before e later part, es = before ++ e :: later → part <+: e.answers → part ≠ e.answers →
    ∃ s, (start c).after (before.flatMap SessionEntry.answers ++ part) = some s ∧
      s.traceTokens = flipped c.settings.traceTokens ":tokens" before ∧
      s.traceTree = flipped c.settings.traceAst ":ast" before

theorem sessionAfter_nil (c : Console) : sessionAfter c [] = start c := by
  simp [sessionAfter, flipped, start]

theorem Logged.isEntry_of_mem {c : Console} {done es : List SessionEntry} (h : Logged c done es) :
    ∀ e ∈ es, IsEntry e.answers e.closing := by
  induction h with
  | last hentry _ _ => simpa using hentry
  | more hentry _ _ _ ih => simpa using ⟨hentry, ih⟩

/-- **Every session is the log of its entries.** -/
theorem session_is_log_of_entries (c : Console) (script : List Answer) : ∃ es, SessionLog c script es := by
  obtain ⟨es, hcloses, htaken⟩ := exists_closes c script [] none [] .nothing
  rw [List.nil_append] at htaken
  obtain ⟨rest, hrest⟩ := htaken
  have hturns := hcloses.turns_eq (start c).greeting
  rw [sessionAfter_nil] at hturns
  have hrun : transcript c script = (turnsOf c (start c).greeting es, lastError es) := by
    rw [transcript, ← hrest, hturns]
  have hlogged := hcloses.logged
  have hprompts := hlogged.length_prompts (start c).greeting
  refine ⟨es, ⟨rest, hrest⟩, hlogged, by rw [hrun], ?ended, by rw [hrun, hprompts], ?bound, ?error, ?history,
    ?switches⟩
  case ended =>
    intro later
    rw [hrun, ← hrest, List.append_assoc, hturns]
  case bound =>
    have hlength := congrArg List.length hrest
    rw [hrun, hprompts]
    simp only [List.length_append, List.length_cons, List.length_nil] at hlength
    omega
  case error =>
    rw [hrun]
    exact hcloses.lastError_eq_some_iff
  case history =>
    rw [hrun, flatMap_history_turnsOf, hlogged.history_eq]
    rfl
  case switches =>
    rintro before e later part rfl hpart hne
    obtain ⟨held?, hgrowing⟩ := (hlogged.isEntry_of_mem e (by simp)).growing_of_isPrefix hpart hne
    have hafter := hcloses.after_eq hgrowing
    rw [sessionAfter_nil, List.nil_append] at hafter
    exact ⟨_, hafter, rfl, rfl⟩

end Pseudocode
