/-
# The commands agree

The tokens of a file, its tree and its value are printed by three commands, and a session
runs what is entered. All of them go through the same stages, and on a console without
styles and log lines (`Console.Quiet`) this can be seen from what they write: they fail
with the same diagnostics, a traced run writes what the other commands write, and a
session prints what the run of a file that holds the entry prints (`commands_agree`).

Which stage failed can be told from a diagnostic (`Console.Quiet.stage_of_diagnostic`), so
that a command that ends with an earlier stage reports exactly the diagnostics of a run
that name its stages (`Console.Quiet.reports_iff_of_stages`). The name of the file is all
that a run takes from it (`outcome_inFile`), and a message does not tell it
(`Failure.message_inFile`).

Key definitions: `Console.Quiet`, `Result.Reports`, `Console.Diagnoses`.
Key theorems: `Console.Quiet.reports_iff_of_stages`, `traced_out_eq`, `outcome_inFile`,
`SessionEntry.Writes.agrees`, `commands_agree`.
-/
import Pseudocode.Program
import Pseudocode.Proofs.RunReport
import Pseudocode.Proofs.SessionLog

namespace Pseudocode

open CommandLine

/-! ### Quiet consoles -/

/-- The settings are valid, nothing is styled or traced, and no details are logged. -/
structure Console.Quiet (c : Console) : Prop where
  valid : c.settings.fault? = none
  color_off : c.settings.color = false
  tokens_off : c.settings.traceTokens = false
  tree_off : c.settings.traceAst = false
  above_debug : c.settings.level ≠ .debug

/-- The flags ask for nothing but the command: no watching, no traces, no format. -/
structure CommandLine.Options.Plain (o : Options) : Prop where
  watch_off : o.watch = false
  tokens_off : o.traceTokens = false
  tree_off : o.traceAst = false
  no_format : o.format = ""

/-- The flags with both traces. -/
def CommandLine.Options.traced (o : Options) : Options := { o with traceTokens := true, traceAst := true }

namespace Console

/-- What is traced of an event. -/
def traced (c : Console) (t : Trace) : Event → Output
  | .tokens ts => c.showTokens t ts
  | .tree x => c.showTree t x
  | _ => {}

/-- What stands before a diagnostic: the name of the file, if there is one. -/
def lead (file : String) : String := if file.isEmpty then "" else file ++ ": "

theorem diagnostic_eq_lead (c : Console) (file : String) (stage : Stage) (message : String) :
    c.diagnostic file stage message = lead file ++ c.diagnostic "" stage message := by
  simp [diagnostic, lead, String.append_assoc]

namespace Quiet
variable {c : Console} (hc : c.Quiet)
include hc

theorem render_eq (role : Role) (text : String) : c.styles.render role text = text := by
  simp [styles, Styles.render, hc.color_off]

theorem log_eq {r : Record} (hr : r.level = .debug) : c.log r = {} := by
  have hpasses : r.level.passes c.settings.level = false := by
    have habove := hc.above_debug
    rw [hr]
    cases hlevel : c.settings.level <;> simp_all [Level.passes, Level.rank]
  simp [log, hpasses]

theorem showEvent_eq (file : String) (t : Trace) (e : Event) : c.showEvent file t e = c.traced t e := by
  cases e with
  | tokens ts => exact Output.empty_append _
  | tree x => exact Output.empty_append _
  | scanned n => exact hc.log_eq rfl
  | parsed => exact hc.log_eq rfl
  | evaluated k => exact hc.log_eq rfl

/-- Without traces nothing is written of the events. -/
theorem showEvents_eq_empty (file : String) (es : List Event) : c.showEvents file {} es = {} := by
  have hnone : ∀ e : Event, c.showEvent file {} e = {} := by
    intro e
    rw [hc.showEvent_eq]
    cases e <;> rfl
  induction es with
  | nil => rfl
  | cons e es ih =>
    change c.showEvent file {} e ++ c.showEvents file {} es = {}
    rw [hnone, ih]
    rfl

/-- With traces it is all on standard output. -/
theorem showEvents_eq (file : String) (t : Trace) (es : List Event) :
    ∃ shown, c.showEvents file t es = { out := shown } := by
  have hout : ∀ e : Event, ∃ shown, c.showEvent file t e = { out := shown } := by
    intro e
    rw [hc.showEvent_eq]
    cases e with
    | tokens ts =>
      simp only [traced, showTokens]
      split <;> exact ⟨_, rfl⟩
    | tree x =>
      simp only [traced, showTree]
      split <;> exact ⟨_, rfl⟩
    | _ => exact ⟨"", rfl⟩
  induction es with
  | nil => exact ⟨"", rfl⟩
  | cons e es ih =>
    obtain ⟨shown, he⟩ := hout e
    obtain ⟨later, hes⟩ := ih
    change ∃ shown, c.showEvent file t e ++ c.showEvents file t es = { out := shown }
    rw [he, hes]
    exact ⟨shown ++ later, rfl⟩

theorem out_showEvents_cons (file : String) (t : Trace) (e : Event) (es : List Event) :
    (c.showEvents file t (e :: es)).out = (c.traced t e).out ++ (c.showEvents file t es).out := by
  rw [← hc.showEvent_eq file]
  rfl

/-- What the scanner leaves in a traced run. -/
theorem out_scanned (file : String) (n : Nat) (ts : List Token) (tree? : Option TreeTrace)
    (es : List Event) :
    (c.showEvents file ⟨true, tree?⟩ (.scanned n :: .tokens ts :: es)).out =
      "== tokens ==\n" ++ tokenTable ts ++ (c.showEvents file ⟨true, tree?⟩ es).out := by
  have htokens : (c.traced ⟨true, tree?⟩ (.tokens ts)).out = "== tokens ==\n" ++ tokenTable ts := by
    change c.styles.header "tokens" ++ "\n" ++ tokenTable ts = _
    rw [Styles.header, hc.render_eq]
    rfl
  rw [hc.out_showEvents_cons, hc.out_showEvents_cons, htokens]
  exact String.empty_append

/-- What the parser leaves in a traced run, where nothing is traced behind it. -/
theorem out_parsed {file : String} {tokens : Bool} {format : TreeFormat} {es : List Event} (x : Expr)
    (hes : (c.showEvents file ⟨tokens, some (.full format)⟩ es).out = "") :
    (c.showEvents file ⟨tokens, some (.full format)⟩ (.parsed :: .tree x :: es)).out =
      "== ast ==\n" ++ x.print format := by
  have htree : (c.traced ⟨tokens, some (.full format)⟩ (.tree x)).out = "== ast ==\n" ++ x.print format := by
    change c.styles.header "ast" ++ "\n" ++ x.print format = _
    rw [Styles.header, hc.render_eq]
    rfl
  rw [hc.out_showEvents_cons, hc.out_showEvents_cons, htree, hes, String.append_empty]
  exact String.empty_append

theorem out_showEvents_evaluated (file : String) (t : Trace) (k : Kind) :
    (c.showEvents file t [.evaluated k]).out = "" :=
  hc.out_showEvents_cons file t (.evaluated k) []

/-- **The stage can be told from the diagnostic.** -/
theorem stage_of_diagnostic {file m m' : String} {stage stage' : Stage}
    (h : c.diagnostic file stage m = c.diagnostic file stage' m') :
    stage.name.toList.head? = stage'.name.toList.head? := by
  have hname : ∀ s : Stage, ∃ a l, s.name.toList = a :: l := by
    intro s
    cases s with
    | unknown n => exact ⟨'S', _, by simp [Stage.name]; rfl⟩
    | _ => exact ⟨_, _, rfl⟩
  have htext := congrArg String.toList h
  simp only [diagnostic, hc.render_eq, String.append_assoc, String.toList_append, List.append_cancel_left_eq]
    at htext
  obtain ⟨a, l, hl⟩ := hname stage
  obtain ⟨a', l', hl'⟩ := hname stage'
  rw [hl, hl'] at htext ⊢
  exact congrArg some (List.cons.inj htext).1

end Quiet

end Console

/-! ### Results of commands -/

/-- The command failed and said so with a diagnostic, and wrote nothing else. -/
def Result.Reports (r : Result) (d : String) : Prop := r.outcome = .reported ∧ r.output = .errorLine d

/-- The diagnostic is of one of the stages. -/
def Console.Diagnoses (c : Console) (file : String) (stages : List Stage) (d : String) : Prop :=
  ∃ stage ∈ stages, ∃ message, d = c.diagnostic file stage message

/-- The result of a command that shows a run. -/
def Console.resultOf {α : Type} (c : Console) (file : String) (t : Trace) (print : α → Output) (r : Run α) :
    Result :=
  ⟨c.showRun file t print r, if r.outcome.isOk then .done else .reported, none⟩

theorem Output.errorLine_inj {d d' : String} : Output.errorLine d = .errorLine d' ↔ d = d' := by
  constructor
  · intro h
    have herr : (d ++ "\n").toList = (d' ++ "\n").toList := congrArg (String.toList ∘ Output.err) h
    rw [String.toList_append, String.toList_append] at herr
    exact String.toList_injective (List.append_cancel_right herr)
  · exact congrArg _

section
variable {w : World} {c : Console} {o : Options} {file src : String} (hsrc : w.disk.read file = .ok src)
include hsrc

theorem perform_tokens : Program.perform w c o .tokens [file] =
    c.resultOf file {} (fun ts => { out := tokenTable ts }) (scanStage file src) := by
  simp only [Program.perform, List.headD_cons, Console.tokensOfFile, Console.onFile, hsrc]
  rfl

theorem perform_ast (hc : c.Quiet) (ho : o.Plain) : Program.perform w c o .ast [file] =
    c.resultOf file {} (fun x => { out := x.print c.treeFormat }) (parseStage file src) := by
  have hformat : TreeFormat.ofName? c.settings.astFormat = some c.treeFormat := by
    have hvalid := hc.valid
    unfold Settings.fault? at hvalid
    unfold Console.treeFormat
    cases hname : TreeFormat.ofName? c.settings.astFormat with
    | none =>
      rw [hname] at hvalid
      split at hvalid <;> simp at hvalid
    | some format => rfl
  have hempty : "".isEmpty = true := rfl
  simp only [Program.perform, List.headD_cons, Program.ast, ho.no_format, hempty, if_true, hformat,
    Console.treeOfFile, Console.onFile, hsrc]
  rfl

theorem perform_run (ho : o.watch = false) : Program.perform w c o .run [file] =
    c.resultOf file (o.trace c) c.showValue (runSource file src) := by
  simp only [Program.perform, List.headD_cons, ho, Bool.false_eq_true, if_false, Console.runFile,
    Console.onFile, hsrc]
  rfl

end

theorem CommandLine.Options.Plain.trace_eq {c : Console} {o : Options} (ho : o.Plain) (hc : c.Quiet) :
    o.trace c = {} := by
  simp [Options.trace, ho.tokens_off, ho.tree_off, hc.tokens_off, hc.tree_off]

/-! ### Diagnostics -/

/-- All failures of a run are marked with a stage. -/
def Run.Staged {α : Type} (r : Run α) : Prop :=
  ∀ f, r.outcome = .error f → ∃ stage inner, f = .staged stage inner

section
variable {α : Type} {c : Console} {file : String} {print : α → Output} {r : Run α}

theorem Console.Quiet.resultOf_ok (hc : c.Quiet) {a : α} (h : r.outcome = .ok a) :
    c.resultOf file {} print r = { output := print a } := by
  simp only [Console.resultOf, Console.showRun, hc.showEvents_eq_empty, h, Output.empty_append]
  rfl

theorem Console.Quiet.resultOf_error (hc : c.Quiet) {stage : Stage} {f : Failure}
    (h : r.outcome = .error (.staged stage f)) : c.resultOf file {} print r =
      { output := .errorLine (c.diagnostic file stage f.message), outcome := .reported } := by
  simp only [Console.resultOf, Console.showRun, hc.showEvents_eq_empty, h, Output.empty_append]
  rfl

theorem Console.Quiet.reports_iff (hc : c.Quiet) (hr : r.Staged) {d : String} :
    (c.resultOf file {} print r).Reports d ↔
      ∃ stage f, r.outcome = .error (.staged stage f) ∧ d = c.diagnostic file stage f.message := by
  cases h : r.outcome with
  | ok a => simp [hc.resultOf_ok h, Result.Reports]
  | error f =>
    obtain ⟨stage, inner, rfl⟩ := hr f h
    simp only [hc.resultOf_error h, Result.Reports, true_and, Output.errorLine_inj, Except.error.injEq,
      Failure.staged.injEq]
    constructor
    · rintro rfl
      exact ⟨stage, inner, ⟨rfl, rfl⟩, rfl⟩
    · rintro ⟨_, _, ⟨rfl, rfl⟩, rfl⟩
      rfl

theorem Console.Quiet.done_or_reports (hc : c.Quiet) (hr : r.Staged) :
    (c.resultOf file {} print r).outcome = .done ∨ ∃ d, (c.resultOf file {} print r).Reports d := by
  cases h : r.outcome with
  | ok a => exact .inl (by rw [hc.resultOf_ok h])
  | error f =>
    obtain ⟨stage, inner, rfl⟩ := hr f h
    exact .inr ⟨_, (hc.reports_iff hr).mpr ⟨stage, inner, h, rfl⟩⟩

end

/-- The stages of a run. -/
def Stage.known : List Stage := [.scanner, .parser, .interpreter]

theorem Stage.eq_of_head {stage stage' : Stage} (h : stage ∈ known) (h' : stage' ∈ known)
    (hname : stage.name.toList.head? = stage'.name.toList.head?) : stage = stage' :=
  (by decide : ∀ s ∈ known, ∀ s' ∈ known, s.name.toList.head? = s'.name.toList.head? → s = s')
    stage h stage' h' hname

/-- A run fails as another one does, in certain stages, and not otherwise. -/
def FailsIn {α β : Type} (stages : List Stage) (r : Run α) (whole : Run β) : Prop :=
  ∀ stage f, r.outcome = .error (.staged stage f) ↔ whole.outcome = .error (.staged stage f) ∧ stage ∈ stages

/-- **A command that ends with an earlier stage reports the diagnostics of the stages it
has.** -/
theorem Console.Quiet.reports_iff_of_stages {α β : Type} {c : Console} (hc : c.Quiet) {file : String}
    {print : α → Output} {print' : β → Output} {r : Run α} {whole : Run β} {stages : List Stage}
    (hr : r.Staged) (hwhole : whole.Staged) (hfails : FailsIn stages r whole)
    (hknown : ∀ stage f, whole.outcome = .error (.staged stage f) → stage ∈ Stage.known)
    (hstages : ∀ stage ∈ stages, stage ∈ Stage.known) (d : String) :
    (c.resultOf file {} print r).Reports d ↔
      (c.resultOf file {} print' whole).Reports d ∧ c.Diagnoses file stages d := by
  rw [hc.reports_iff hr, hc.reports_iff hwhole]
  constructor
  · rintro ⟨stage, f, hf, rfl⟩
    obtain ⟨hf, hstage⟩ := (hfails stage f).mp hf
    exact ⟨⟨stage, f, hf, rfl⟩, stage, hstage, f.message, rfl⟩
  · rintro ⟨⟨stage, f, hf, rfl⟩, stage', hstage', m, hd⟩
    -- the run failed in some stage, and the text of its diagnostic says which
    have hname := hc.stage_of_diagnostic hd
    obtain rfl := Stage.eq_of_head (hknown stage f hf) (hstages stage' hstage') hname
    exact ⟨stage, f, (hfails stage f).mpr ⟨hf, hstage'⟩, rfl⟩

/-! ### The stages of a run -/

theorem staged_scanStage (file src : String) : (scanStage file src).Staged :=
  fun _ h => ⟨_, Run.exists_stage_of_error h⟩

theorem staged_parseStage (file src : String) : (parseStage file src).Staged := by
  intro f h
  obtain hscan | ⟨ts, hparse⟩ := Run.error_of_andThen h
  · exact staged_scanStage file src f hscan
  · exact ⟨_, Run.exists_stage_of_error hparse⟩

theorem staged_runSource (file src : String) : (runSource file src).Staged :=
  fun _ h => exists_stage_of_error h

theorem stage_mem_known {file src : String} {stage : Stage} {f : Failure}
    (h : (runSource file src).outcome = .error (.staged stage f)) : stage ∈ Stage.known := by
  have hrun := runOf_runSource file src
  generalize runSource file src = r at hrun h
  cases hrun <;> simp at h <;> obtain ⟨rfl, -⟩ := h <;> decide

theorem scanStage_failsIn (file src : String) :
    FailsIn [.scanner] (scanStage file src) (runSource file src) := by
  intro stage f
  have hrun := runOf_runSource file src
  generalize runSource file src = r at hrun
  cases hrun with
  | value hscan _ _ => simp [scanStage_of_ok hscan]
  | scanner hscan => simp +contextual [scanStage_of_error hscan, eq_comm]
  | parser hscan _ => simp +contextual [scanStage_of_ok hscan, eq_comm]
  | interpreter hscan _ _ => simp +contextual [scanStage_of_ok hscan, eq_comm]

theorem parseStage_failsIn (file src : String) :
    FailsIn [.scanner, .parser] (parseStage file src) (runSource file src) := by
  intro stage f
  have hrun := runOf_runSource file src
  generalize runSource file src = r at hrun
  cases hrun with
  | value hscan hparse _ => simp [parseStage_of_ok hscan hparse]
  | scanner hscan => simp +contextual [parseStage_of_scan_error hscan, eq_comm]
  | parser hscan hparse => simp +contextual [parseStage_of_error hscan hparse, eq_comm]
  | interpreter hscan hparse _ => simp +contextual [parseStage_of_ok hscan hparse, eq_comm]

/-- What the value of a run writes on standard output, if it has one. -/
def valueLine : Except Failure Value → String
  | .ok v => v.display ++ "\n"
  | .error _ => ""

/-- **A traced run writes what the other commands write**, each under its header. -/
theorem traced_out_eq {c : Console} (hc : c.Quiet) (file src : String) :
    (c.resultOf file ⟨true, some (.full c.treeFormat)⟩ c.showValue (runSource file src)).output.out =
      (if (scan file src).isOk then "== tokens ==\n" ++
        (c.resultOf file {} (fun ts => { out := tokenTable ts }) (scanStage file src)).output.out else "") ++
      (if (parseSource file src).isOk then "== ast ==\n" ++
        (c.resultOf file {} (fun x => { out := x.print c.treeFormat }) (parseStage file src)).output.out
        else "") ++
      valueLine (runSource file src).outcome := by
  have hrun := runOf_runSource file src
  generalize runSource file src = r at hrun
  cases hrun with
  | @scanner e hscan =>
    have hsource : parseSource file src = .error (.scan e) := by simp only [parseSource, hscan]
    rw [hscan, hsource]
    rfl
  | @parser ts e hscan hparse =>
    have hsource : parseSource file src = .error (.parse e) := by
      simp only [parseSource, hscan, hparse, Except.mapError]
    rw [hc.resultOf_ok (by rw [scanStage_of_ok hscan]), hscan, hsource]
    change (c.showEvents file _ [_, _]).out ++ "" = _
    rw [hc.out_scanned]
    rfl
  | @interpreter ts x e hscan hparse _ =>
    have hsource : parseSource file src = .ok x := by
      simp only [parseSource, hscan, hparse, Except.mapError]
    rw [hc.resultOf_ok (by rw [scanStage_of_ok hscan]),
      hc.resultOf_ok (by rw [parseStage_of_ok hscan hparse]), hscan, hsource]
    change (c.showEvents file _ [_, _, _, _]).out ++ "" = _
    rw [hc.out_scanned, hc.out_parsed x rfl]
    rfl
  | @value ts x v hscan hparse _ =>
    have hsource : parseSource file src = .ok x := by
      simp only [parseSource, hscan, hparse, Except.mapError]
    rw [hc.resultOf_ok (by rw [scanStage_of_ok hscan]),
      hc.resultOf_ok (by rw [parseStage_of_ok hscan hparse]), hscan, hsource]
    change (c.showEvents file _ [_, _, _, _, _]).out ++ (c.styles.render .value v.display ++ "\n") = _
    rw [hc.out_scanned, hc.out_parsed x (hc.out_showEvents_evaluated file _ v.kind), hc.render_eq]
    rfl

/-! ### The name of the file -/

theorem Failure.message_inFile (file : String) (f : Failure) :
    (f.moved (Pos.inFile file)).message = f.message := by
  induction f with
  | context m inner ih => simp only [moved, message, ih]
  | staged s inner ih => simp only [moved, message, ih]
  | _ => rfl

/-- **The file's name is all that a run takes from it**, and tells it in places only. -/
theorem outcome_inFile (file src : String) : (runSource file src).outcome =
    (runSource "" src).outcome.mapError (Failure.moved (Pos.inFile file)) := by
  have hscan := scan_inFile file src
  cases hbare : scan "" src with
  | error e =>
    rw [hbare] at hscan
    rw [runSource_of_scan_error hbare, runSource_of_scan_error hscan]
    rfl
  | ok ts =>
    rw [hbare] at hscan
    have hparse := parseTokens_moved (Pos.inFile file) (terminated_of_scan hbare)
    cases hbareParse : parseTokens ts with
    | error e =>
      rw [hbareParse] at hparse
      rw [runSource_of_parse_error hbare hbareParse, runSource_of_parse_error hscan hparse]
      rfl
    | ok x =>
      rw [hbareParse] at hparse
      rw [runSource_of_parse hbare hbareParse, runSource_of_parse hscan hparse, Expr.eval_moved]
      rcases x.eval with (e | m) | v <;> rfl

/-! ### Sessions -/

theorem Logged.writes {c : Console} : ∀ {before done later : List SessionEntry} {e : SessionEntry},
    Logged c done (before ++ e :: later) → e.Writes c (done ++ before)
  | [], done, later, e, h => by
    rw [List.append_nil]
    cases h with
    | last _ hwrites _ => exact hwrites
    | more _ hwrites _ _ => exact hwrites
  | e' :: before, done, later, e, h => by
    rw [List.cons_append] at h
    generalize hes : before ++ e :: later = es at h
    cases h with
    | last => simp at hes
    | more _ _ _ hlater =>
      subst hes
      have hwrites := hlater.writes
      rwa [List.append_assoc, List.singleton_append] at hwrites

theorem Output.history_append_shown (entries : List String) (shown : String) (o : Output) :
    ({ history := entries } : Output) ++ (({ out := shown } : Output) ++ o) =
      { out := shown, history := entries } ++ o := by
  change Output.mk ("" ++ (shown ++ o.out)) ("" ++ ("" ++ o.err)) (entries ++ ([] ++ o.history)) =
    Output.mk (shown ++ o.out) ("" ++ o.err) (entries ++ o.history)
  rw [String.empty_append, String.empty_append, List.nil_append]

/-- What an entry writes is known from the run of a file that holds it. -/
theorem SessionEntry.Writes.agrees {c : Console} (hc : c.Quiet) {done : List SessionEntry} {e : SessionEntry}
    (h : e.Writes c done) {src : String} (hsrc : e.submitted? = some src) (hcommand : e.command? = none)
    (file : String) : ∃ shown, ((sessionAfter c done).trace = {} → shown = "") ∧
      ((∃ v, (runSource file src).outcome = .ok v ∧
          e.output = { out := shown, history := [src] } ++ c.showValue v) ∨
        ∃ stage f, (runSource file src).outcome = .error (.staged stage f) ∧
          e.output = { out := shown, history := [src] } ++ .errorLine (c.diagnostic "" stage f.message)) := by
  obtain ⟨shown, hshown⟩ := hc.showEvents_eq "" (sessionAfter c done).trace (runSource "" src).events
  have hfile := outcome_inFile file src
  refine ⟨shown, ?_, ?_⟩
  · intro htrace
    rw [htrace, hc.showEvents_eq_empty] at hshown
    exact (congrArg Output.out hshown).symm
  · cases h with
    | command _ hword _ => simp [hcommand] at hword
    | @value src' v hsrc' _ hrun hout =>
      obtain rfl : src = src' := by simpa [hsrc] using hsrc'
      rw [hrun] at hfile
      rw [hshown, Output.history_append_shown] at hout
      exact .inl ⟨v, hfile, hout⟩
    | @failure src' stage f hsrc' _ hrun hout =>
      obtain rfl : src = src' := by simpa [hsrc] using hsrc'
      rw [hrun] at hfile
      rw [hshown, Output.history_append_shown, ← f.message_inFile file] at hout
      exact .inr ⟨stage, _, hfile, hout⟩
    | farewell hclosing _ _ => simp [SessionEntry.submitted?, hclosing] at hsrc
    | nothing hnone _ _ _ => simp [hsrc] at hnone

/-- **The commands agree on every file.** Let a file be read, on a console with valid
settings that styles, traces and logs no details. A command on it is done or reports a
diagnostic and nothing else. The tokens are reported to fail with a diagnostic exactly if
it is one of the scanner with which the run fails, and the tree exactly if it is one of the
scanner or the parser. A run with both traces prints what these commands print, each under
its header as far as its stages complete, and then the value. In a session, an entry that
is the content of the file prints, behind what the session traces, the value that the run
prints or the diagnostic without the name of the file. -/
theorem commands_agree {w : World} {c : Console} {o : Options} {file src : String} (hc : c.Quiet)
    (ho : o.Plain) (hsrc : w.disk.read file = .ok src) :
    (∀ command ∈ [Command.tokens, .ast, .run], (Program.perform w c o command [file]).outcome = .done ∨
      ∃ d, (Program.perform w c o command [file]).Reports d) ∧
    (∀ d, (Program.perform w c o .tokens [file]).Reports d ↔
      (Program.perform w c o .run [file]).Reports d ∧ c.Diagnoses file [.scanner] d) ∧
    (∀ d, (Program.perform w c o .ast [file]).Reports d ↔
      (Program.perform w c o .run [file]).Reports d ∧ c.Diagnoses file [.scanner, .parser] d) ∧
    (Program.perform w c o.traced .run [file]).output.out =
      (if (scan file src).isOk then
        "== tokens ==\n" ++ (Program.perform w c o .tokens [file]).output.out else "") ++
      (if (parseSource file src).isOk then
        "== ast ==\n" ++ (Program.perform w c o .ast [file]).output.out else "") ++
      valueLine (runSource file src).outcome ∧
    ∀ script, ∃ es, es.flatMap SessionEntry.answers <+: script ++ [.endOfInput, .endOfInput] ∧
      Logged c [] es ∧ (Session.transcript c script).1 = turnsOf c (Session.start c).greeting es ∧
      ∀ before e later, es = before ++ e :: later → e.submitted? = some src → e.command? = none →
        ∃ shown, ((sessionAfter c before).trace = {} → shown = "") ∧
          ((∃ v, Program.perform w c o .run [file] = { output := c.showValue v } ∧
              e.output = { out := shown, history := [src] } ++ c.showValue v) ∨
            ∃ d, (Program.perform w c o .run [file]).Reports (Console.lead file ++ d) ∧
              e.output = { out := shown, history := [src] } ++ .errorLine d) := by
  have htokens := perform_tokens (c := c) (o := o) hsrc
  have hast := perform_ast hsrc hc ho
  have hrun := perform_run (c := c) hsrc ho.watch_off
  have htraced := perform_run (c := c) (o := o.traced) hsrc ho.watch_off
  rw [ho.trace_eq hc] at hrun
  refine ⟨?_, fun d => ?_, fun d => ?_, ?_, fun script => ?_⟩
  · simp only [List.forall_mem_cons, htokens, hast, hrun]
    exact ⟨hc.done_or_reports (staged_scanStage file src), hc.done_or_reports (staged_parseStage file src),
      hc.done_or_reports (staged_runSource file src), by simp⟩
  · rw [htokens, hrun]
    exact hc.reports_iff_of_stages (staged_scanStage file src) (staged_runSource file src)
      (scanStage_failsIn file src) (fun _ _ => stage_mem_known) (by decide) d
  · rw [hast, hrun]
    exact hc.reports_iff_of_stages (staged_parseStage file src) (staged_runSource file src)
      (parseStage_failsIn file src) (fun _ _ => stage_mem_known) (by decide) d
  · rw [htraced, htokens, hast]
    exact traced_out_eq hc file src
  · obtain ⟨es, hcloses, rest, hrest⟩ := exists_closes c script [] none [] .nothing
    rw [List.nil_append] at hrest
    have hturns := hcloses.turns_eq (Session.start c).greeting rest
    rw [hrest, sessionAfter_nil] at hturns
    refine ⟨es, ⟨rest, hrest⟩, hcloses.logged, congrArg Prod.fst hturns, ?_⟩
    rintro before e later rfl hentry hcommand
    obtain ⟨shown, hshown, ⟨v, hv, hout⟩ | ⟨stage, f, hf, hout⟩⟩ :=
      hcloses.logged.writes.agrees hc hentry hcommand file
    · refine ⟨shown, hshown, .inl ⟨v, ?_, hout⟩⟩
      rw [hrun, hc.resultOf_ok hv]
    · refine ⟨shown, hshown, .inr ⟨_, ?_, hout⟩⟩
      rw [hrun, ← Console.diagnostic_eq_lead]
      exact (hc.reports_iff (staged_runSource file src)).mpr ⟨stage, f, hf, rfl⟩

/-- A world with one file, which holds half an operator. -/
def markWorld : World where
  disk := ⟨fun path => if path = "a" then .ok "!" else .error .missing, fun _ => none, (· == "a")⟩
  env := []

def plainConsole : Console := { settings := { color := false } }

theorem plainConsole_quiet : plainConsole.Quiet := by
  have hlevel : Level.ofName? "warn" = some .warn := by cbv
  refine ⟨?_, rfl, rfl, rfl, ?_⟩
  · simp [plainConsole, Settings.fault?, hlevel, TreeFormat.ofName?]
  · simp [plainConsole, Settings.level, hlevel]

theorem lone_mark_agrees :
    (Program.perform markWorld plainConsole {} .run ["a"]).Reports
      "a: scanner error: at line 1, column 1: unexpected end of input" ∧
    (Program.perform markWorld plainConsole {} .tokens ["a"]).Reports
      "a: scanner error: at line 1, column 1: unexpected end of input" ∧
    (Program.perform markWorld plainConsole {} .ast ["a"]).Reports
      "a: scanner error: at line 1, column 1: unexpected end of input" ∧
    (Program.perform markWorld plainConsole (Options.traced {}) .run ["a"]).output.out = "" := by
  have hscan : scan "a" "!" = .error ⟨.unexpectedEnd, ⟨"a", 1, 1⟩, 33⟩ :=
    Scanner.tokens_lexeme _ [] isSpacing_nil (by decide) rfl
  have hread : markWorld.disk.read "a" = .ok "!" := rfl
  have hplain : Options.Plain {} := ⟨rfl, rfl, rfl, rfl⟩
  have hc := plainConsole_quiet
  obtain ⟨-, htokens, hast, htraced, -⟩ := commands_agree hc hplain hread
  have htext : plainConsole.diagnostic "a" .scanner
      (Failure.scan ⟨.unexpectedEnd, ⟨"a", 1, 1⟩, 33⟩).message =
        "a: scanner error: at line 1, column 1: unexpected end of input" := by decide
  have hrun : (Program.perform markWorld plainConsole {} .run ["a"]).Reports
      "a: scanner error: at line 1, column 1: unexpected end of input" := by
    rw [perform_run hread rfl, hplain.trace_eq hc]
    exact (hc.reports_iff (staged_runSource "a" "!")).mpr
      ⟨_, _, by rw [runSource_of_scan_error hscan], htext.symm⟩
  refine ⟨hrun, (htokens _).mpr ⟨hrun, _, ?_, _, htext.symm⟩, (hast _).mpr ⟨hrun, _, ?_, _, htext.symm⟩,
    htraced.trans ?_⟩
  · decide
  · decide
  · rw [hscan, parseSource, hscan, runSource_of_scan_error hscan]
    rfl

end Pseudocode
