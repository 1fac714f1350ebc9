/-
# What a run reports

A run goes through its stages up to the first one that fails. Each stage that completes
tells so, and the one that fails ends the run with its own kind of error and no other: a
tree that was parsed lacks nothing, so evaluating it can only meet an operation that has
no value (`RunOf`, `runOf_runSource`).

An error stands at a place of the source. Scanning reports where some part of the source
ends (`Scanner.tokens_places`), and that is on one of its lines and at most one column
behind it (`Pos.inSource_after`). Parsing and evaluation only hand on the places of the
tokens, so a map that keeps those keeps the place of the error (`parse_error_place`,
`eval_error_place`).

Key definitions: `Pos.InSource`, `RunOf`.
Key theorems: `Scanner.tokens_places`, `Pos.inSource_after`, `parse_error_place`,
`eval_error_place`, `runOf_runSource`, `run_reports_stage_and_place`.
-/
import Pseudocode.Proofs.KindSoundness
import Pseudocode.Proofs.MovedPlaces
import Pseudocode.Proofs.RoundTrip
import Pseudocode.Text.Lines

namespace Pseudocode

/-! ### Places of a source -/

/-- The place is in the file, on a line of the source, and at one of the characters of
that line or right behind them, where its newline or the end of the source is. -/
structure Pos.InSource (p : Pos) (file : String) (src : List Char) : Prop where
  file_eq : p.file = file
  one_le_line : 1 ≤ p.line
  line_le : p.line ≤ 1 + src.count '\n'
  one_le_col : 1 ≤ p.col
  col_le : ∃ line, (splitLines src)[(p.line - 1).toNat]? = some line ∧ p.col ≤ 1 + line.length

theorem exists_splitLines_eq_cons (cs : List Char) : ∃ l ls, splitLines cs = l :: ls := by
  cases cs with
  | nil => exact ⟨[], [], rfl⟩
  | cons c cs =>
    unfold splitLines
    split
    · exact ⟨_, _, rfl⟩
    · split <;> exact ⟨_, _, rfl⟩

/-- The line that a part of a text ends on starts with what the part has of it. The
induction is from the end of the part. -/
theorem drop_splitLines_append (read : List Char) : ∀ {rest l : List Char} {ls : List (List Char)},
    splitLines rest = l :: ls →
      (splitLines (read ++ rest)).drop (read.count '\n') =
        ((read.reverse.takeWhile (· ≠ '\n')).reverse ++ l) :: ls := by
  induction read using List.reverseRecOn with
  | nil =>
    intro rest l ls h
    simp [h]
  | append_singleton read c ih =>
    intro rest l ls h
    rw [List.append_assoc, List.singleton_append]
    by_cases hc : c = '\n'
    · subst hc
      have hnext : splitLines ('\n' :: rest) = [] :: l :: ls := by simp [splitLines, h]
      have hdrop := congrArg (List.drop 1) (ih hnext)
      rw [List.drop_drop] at hdrop
      simpa using hdrop
    · have hnext : splitLines (c :: rest) = (c :: l) :: ls := by simp [splitLines, h, hc]
      simpa [hc] using ih hnext

/-- **Where a part of a source ends is a place of the source.** -/
theorem Pos.inSource_after (file : String) {read src : List Char} (h : read <+: src) :
    (after file read).InSource file src := by
  obtain ⟨rest, rfl⟩ := h
  obtain ⟨l, ls, hrest⟩ := exists_splitLines_eq_cons rest
  have hline := congrArg (·[0]?) (drop_splitLines_append read hrest)
  simp only [List.getElem?_drop, Nat.add_zero, List.getElem?_cons_zero] at hline
  refine ⟨rfl, ?_, ?_, ?_, (read.reverse.takeWhile (· ≠ '\n')).reverse ++ l, ?_, ?_⟩
  · simp only [after]
    omega
  · simp only [after, List.count_append]
    omega
  · simp only [after]
    omega
  · have hindex : ((after file read).line - 1).toNat = read.count '\n' := by
      simp only [after]
      omega
    rw [hindex]
    exact hline
  · simp only [after, List.length_append, List.length_reverse]
    omega

/-! ### Where scanning reports -/

/-- A place where some part of the text `cs` ends, which stands behind `before`. -/
def ReadPlace (file : String) (before cs : List Char) (p : Pos) : Prop :=
  ∃ read, read <+: cs ∧ p = .after file (before ++ read)

theorem ReadPlace.append {file : String} {before front cs : List Char} {p : Pos}
    (h : ReadPlace file (before ++ front) cs p) : ReadPlace file before (front ++ cs) p := by
  obtain ⟨read, hread, rfl⟩ := h
  exact ⟨front ++ read, (List.prefix_append_right_inj front).mpr hread, by rw [List.append_assoc]⟩

/-- What a lexeme gives stands at its start, or is an error behind it. -/
theorem Scanner.report_place {start stop : Pos} {m : Meaning} {P : Pos → Prop} (hstart : P start)
    (hstop : P stop) : (∀ t, report start stop m = .ok t → P t.pos) ∧
      ∀ e, report start stop m = .error e → P e.pos := by
  cases m with
  | token k v n =>
    refine ⟨?_, by simp [report]⟩
    rintro _ ⟨⟩
    exact hstart
  | faultAtStart fault code =>
    refine ⟨by simp [report], ?_⟩
    rintro _ ⟨⟩
    exact hstart
  | faultAfter fault code =>
    refine ⟨by simp [report], ?_⟩
    rintro _ ⟨⟩
    exact hstop

/-- **Scanning reports where some part of the text ends**, for a token and for an error. -/
theorem Scanner.tokens_places (file : String) (cs : List Char) : ∀ before : List Char,
    (∀ ts, (Scanner.mk (.after file before) cs).tokens = .ok ts →
      ∀ t ∈ ts, ReadPlace file before cs t.pos) ∧
      ∀ e, (Scanner.mk (.after file before) cs).tokens = .error e → ReadPlace file before cs e.pos := by
  induction cs using scan_induction with
  | blank cs hblank =>
    intro before
    rw [tokens_blank _ hblank, Pos.advanceBy_after]
    refine ⟨?_, by simp⟩
    rintro _ ⟨⟩ t ht
    rw [List.mem_singleton.mp ht]
    exact ⟨cs, List.prefix_rfl, rfl⟩
  | lexeme blanks c cs hblanks hc ih =>
    intro before
    have happ := taken_append_rest c cs
    rw [tokens_lexeme _ _ hblanks hc rfl, Pos.advanceBy_after, Pos.advanceBy_after]
    generalize lexemeAt c cs = l at ih happ
    rw [← happ]
    have hstart : ReadPlace file before (blanks ++ (l.taken ++ l.rest)) (.after file (before ++ blanks)) :=
      ⟨blanks, List.prefix_append _ _, rfl⟩
    have hstop : ReadPlace file before (blanks ++ (l.taken ++ l.rest))
        (.after file (before ++ blanks ++ l.taken)) :=
      ⟨blanks ++ l.taken, by simp, by simp⟩
    obtain ⟨hfirst, hfault⟩ := report_place (m := l.meaning) hstart hstop
    obtain ⟨hrest, hlater⟩ := ih (before ++ blanks ++ l.taken)
    rcases hreport : report (.after file (before ++ blanks)) _ l.meaning with e | t
    · refine ⟨by simp [Except.bind], ?_⟩
      rintro _ ⟨⟩
      exact hfault e hreport
    · cases htokens : (Scanner.mk (.after file (before ++ blanks ++ l.taken)) l.rest).tokens with
      | error e =>
        refine ⟨by simp [Except.bind, Except.map], ?_⟩
        rintro _ ⟨⟩
        exact (hlater e htokens).append.append
      | ok ts =>
        refine ⟨?_, by simp [Except.bind, Except.map]⟩
        rintro _ ⟨⟩ t' ht'
        rcases List.mem_cons.mp ht' with rfl | ht'
        · exact hfirst _ hreport
        · exact (hrest ts htokens t' ht').append.append

theorem scan_places (file src : String) :
    (∀ ts, scan file src = .ok ts → ∀ t ∈ ts, t.pos.InSource file src.toList) ∧
      ∀ e, scan file src = .error e → e.pos.InSource file src.toList := by
  have hplace : ∀ {p : Pos}, ReadPlace file [] src.toList p → p.InSource file src.toList := by
    rintro _ ⟨read, hread, rfl⟩
    exact Pos.inSource_after file hread
  obtain ⟨htokens, herror⟩ := Scanner.tokens_places file src.toList []
  rw [Pos.after_nil] at htokens herror
  exact ⟨fun ts hts t ht => hplace (htokens ts hts t ht), fun e he => hplace (herror e he)⟩

/-! ### Where parsing and evaluation report -/

open Classical in
/-- The places with a property stay, and all others go to one place. -/
noncomputable def Pos.gather (P : Pos → Prop) (home p : Pos) : Pos := if P p then p else home

theorem Pos.gather_of_pos {P : Pos → Prop} {home p : Pos} (h : P p) : gather P home p = p := if_pos h

theorem Pos.of_gather_eq {P : Pos → Prop} {home p : Pos} (hhome : P home) (h : gather P home p = p) :
    P p := by
  by_contra hp
  rw [gather, if_neg hp] at h
  exact hp (h ▸ hhome)

/-- Tokens whose places all have a property are parsed alike when all other places are
gathered. -/
theorem parseTokens_gather {P : Pos → Prop} {ts : List Token} (hts : Terminated ts)
    (hP : ∀ t ∈ ts, P t.pos) : ∃ home, P home ∧ parseTokens ts =
      movedResult (ParseError.moved (Pos.gather P home)) (Expr.moved (Pos.gather P home))
        (parseTokens ts) := by
  obtain ⟨body, stop, rfl, hbody, hstop⟩ := hts
  have hhome : P stop.pos := hP stop (by simp)
  -- no token is at another place, so gathering moves none of them
  have hstay : (body ++ [stop]).map (Token.moved (Pos.gather P stop.pos)) = body ++ [stop] := by
    conv_rhs => rw [← List.map_id (body ++ [stop])]
    refine List.map_congr_left fun t ht => ?_
    rw [Token.moved, Pos.gather_of_pos (hP t ht)]
    rfl
  have hmoved := parseTokens_moved (Pos.gather P stop.pos) ⟨body, stop, rfl, hbody, hstop⟩
  rw [hstay] at hmoved
  exact ⟨stop.pos, hhome, hmoved⟩

/-- **A syntax error stands where one of the tokens stands.** -/
theorem parse_error_place {P : Pos → Prop} {ts : List Token} (hts : Terminated ts)
    (hP : ∀ t ∈ ts, P t.pos) {e : ParseError} (h : parseTokens ts = .error e) : P e.pos := by
  obtain ⟨home, hhome, hmoved⟩ := parseTokens_gather hts hP
  rw [h] at hmoved
  have hpos : e.pos = Pos.gather P home e.pos := congrArg ParseError.pos (Except.error.inj hmoved)
  exact Pos.of_gather_eq hhome hpos.symm

/-- **An error of evaluation stands where one of the tokens stood.** -/
theorem eval_error_place {P : Pos → Prop} {ts : List Token} (hts : Terminated ts)
    (hP : ∀ t ∈ ts, P t.pos) {x : Expr} (h : parseTokens ts = .ok x) {e : RuntimeError}
    (he : x.eval = .error (.runtime e)) : P e.pos := by
  obtain ⟨home, hhome, hmoved⟩ := parseTokens_gather hts hP
  rw [h] at hmoved
  have hx : x = x.moved (Pos.gather P home) := Except.ok.inj hmoved
  have heval := x.eval_moved (Pos.gather P home)
  rw [← hx, he] at heval
  have hpos : e.pos = Pos.gather P home e.pos :=
    congrArg RuntimeError.pos (EvalError.runtime.inj (Except.error.inj heval))
  exact Pos.of_gather_eq hhome hpos.symm

/-! ### What parsing leaves to evaluation -/

theorem terminated_of_scan {file src : String} {ts : List Token} (h : scan file src = .ok ts) :
    Terminated ts := by
  obtain ⟨ps, w, hsplit, rfl⟩ := scan_eq_ok_iff.mp h
  obtain ⟨body, stop, heq, hbody, hstop⟩ := exists_tokensOf_eq file w ps []
  rw [heq]
  exact terminated_of_split hsplit hbody hstop

theorem Expr.Printable.complete {x : Expr} (h : x.Printable) : x.Complete := by
  induction x with
  | lit => trivial
  | unary _ _ _ ih => exact ih h.2
  | binary _ _ _ _ ihx ihy => exact ⟨ihx h.2.1, ihy h.2.2⟩
  | hole => exact h.elim
  | foreign => exact h.elim

theorem resultKind?_ne_invalid (left : Kind) (op : TokenKind) (right : Kind) :
    resultKind? left op right ≠ some .invalid := by
  unfold resultKind?
  split
  · split
    · simp
    · split <;> simp
  · split
    · simp
    · split <;> simp
  · split <;> simp
  · simp

theorem unaryKind?_ne_invalid (op : TokenKind) (k : Kind) : unaryKind? op k ≠ some .invalid := by
  unfold unaryKind?
  split
  · next h =>
    rcases h.2 with rfl | rfl <;> simp
  · split <;> simp

/-- What is evaluated to a value is evaluated to one of the four kinds. -/
theorem Expr.Printable.kind?_ne_invalid {x : Expr} (h : x.Printable) : x.kind? ≠ some .invalid := by
  cases x with
  | lit p v =>
    cases v with
    | invalid => exact h.elim
    | _ => simp [kind?, Value.kind]
  | unary p op x =>
    intro hk
    obtain ⟨k, -, hk⟩ := Option.bind_eq_some_iff.mp hk
    exact unaryKind?_ne_invalid op k hk
  | binary p op x y =>
    intro hk
    obtain ⟨k, -, hk⟩ := Option.bind_eq_some_iff.mp hk
    obtain ⟨k', -, hk⟩ := Option.bind_eq_some_iff.mp hk
    exact resultKind?_ne_invalid k op k' hk
  | hole => exact h.elim
  | foreign => exact h.elim

/-- **A tree that can be printed has a value, or an operation in it has none.** -/
theorem Expr.Printable.eval_cases {x : Expr} (h : x.Printable) :
    (∃ v, x.eval = .ok v ∧ v.isValid = true) ∨ ∃ e, x.eval = .error (.runtime e) := by
  have hfore := eval_foretold h.complete
  cases hk : x.kind? with
  | none =>
    rw [hk] at hfore
    exact .inr hfore
  | some k =>
    rw [hk] at hfore
    obtain ⟨v, hv, rfl⟩ | ⟨e, he, -⟩ := hfore
    · refine .inl ⟨v, hv, ?_⟩
      have hvalid : v.kind ≠ .invalid := fun hi => h.kind?_ne_invalid (hi ▸ hk)
      simpa [Value.isValid] using hvalid
    · exact .inr ⟨e, he⟩

/-! ### Runs -/

/-- How the run of a source goes. An event is a record in the log, or shows the tokens or
the tree to whoever traces the run. -/
inductive RunOf (file src : String) : Run Value → Prop where
  /-- All stages complete. -/
  | value {ts : List Token} {x : Expr} {v : Value} : scan file src = .ok ts → parseTokens ts = .ok x →
      x.eval = .ok v →
        RunOf file src ⟨[.scanned ts.length, .tokens ts, .parsed, .tree x, .evaluated v.kind], .ok v⟩
  | scanner {e : ScanError} : scan file src = .error e →
      RunOf file src ⟨[], .error (.staged .scanner (.scan e))⟩
  | parser {ts : List Token} {e : ParseError} : scan file src = .ok ts → parseTokens ts = .error e →
      RunOf file src ⟨[.scanned ts.length, .tokens ts], .error (.staged .parser (.parse e))⟩
  | interpreter {ts : List Token} {x : Expr} {e : RuntimeError} : scan file src = .ok ts →
      parseTokens ts = .ok x → x.eval = .error (.runtime e) →
        RunOf file src ⟨[.scanned ts.length, .tokens ts, .parsed, .tree x],
          .error (.staged .interpreter (.runtime e))⟩

section
variable {file src : String} {ts : List Token}

theorem scanStage_of_ok (h : scan file src = .ok ts) :
    scanStage file src = ⟨[.scanned ts.length, .tokens ts], .ok ts⟩ := by
  simp only [scanStage, h]
  rfl

theorem scanStage_of_error {e : ScanError} (h : scan file src = .error e) :
    scanStage file src = ⟨[], .error (.staged .scanner (.scan e))⟩ := by
  simp only [scanStage, h]
  rfl

theorem parseStage_of_scan_error {e : ScanError} (h : scan file src = .error e) :
    parseStage file src = ⟨[], .error (.staged .scanner (.scan e))⟩ := by
  simp only [parseStage, scanStage_of_error h]
  rfl

theorem parseStage_of_error {e : ParseError} (h : scan file src = .ok ts)
    (hparse : parseTokens ts = .error e) :
    parseStage file src = ⟨[.scanned ts.length, .tokens ts], .error (.staged .parser (.parse e))⟩ := by
  simp only [parseStage, scanStage_of_ok h, Run.andThen, hparse]
  rfl

theorem parseStage_of_ok {x : Expr} (h : scan file src = .ok ts) (hparse : parseTokens ts = .ok x) :
    parseStage file src = ⟨[.scanned ts.length, .tokens ts, .parsed, .tree x], .ok x⟩ := by
  simp only [parseStage, scanStage_of_ok h, Run.andThen, hparse]
  rfl

theorem runSource_of_scan_error {e : ScanError} (h : scan file src = .error e) :
    runSource file src = ⟨[], .error (.staged .scanner (.scan e))⟩ := by
  simp only [runSource, parseStage_of_scan_error h]
  rfl

theorem runSource_of_parse_error {e : ParseError} (h : scan file src = .ok ts)
    (hparse : parseTokens ts = .error e) :
    runSource file src = ⟨[.scanned ts.length, .tokens ts], .error (.staged .parser (.parse e))⟩ := by
  simp only [runSource, parseStage_of_error h hparse]
  rfl

theorem runSource_of_parse {x : Expr} (h : scan file src = .ok ts) (hparse : parseTokens ts = .ok x) :
    runSource file src = ⟨[.scanned ts.length, .tokens ts, .parsed, .tree x] ++
        (x.eval.toOption.map fun v => Event.evaluated v.kind).toList,
      x.eval.mapError fun e => .staged .interpreter (.ofEval e)⟩ := by
  simp only [runSource, parseStage_of_ok h hparse, Run.andThen]
  cases x.eval <;> rfl

theorem outcome_of_parse {x : Expr} (hscan : scan file src = .ok ts) (hparse : parseTokens ts = .ok x) :
    (runSource file src).outcome = x.eval.mapError fun e => .staged .interpreter (.ofEval e) := by
  rw [runSource_of_parse hscan hparse]

end

/-- **A run ends with a value, or at its first stage that fails.** -/
theorem runOf_runSource (file src : String) : RunOf file src (runSource file src) := by
  cases hscan : scan file src with
  | error e =>
    rw [runSource_of_scan_error hscan]
    exact .scanner hscan
  | ok ts =>
    cases hparse : parseTokens ts with
    | error e =>
      rw [runSource_of_parse_error hscan hparse]
      exact .parser hscan hparse
    | ok x =>
      have hx := printable_of_parseSource (parseSource_eq_ok_iff.mpr ⟨ts, hscan, hparse⟩)
      rw [runSource_of_parse hscan hparse]
      obtain ⟨v, hv, -⟩ | ⟨e, he⟩ := hx.eval_cases
      · rw [hv]
        exact .value hscan hparse hv
      · rw [he]
        exact .interpreter hscan hparse he

/-- **A run reports the stage that fails and a place of the source.** It goes through its
stages up to the first that fails, tells of those that complete and of no other, and ends
with a valid value, or with the error of that stage and no value. The message of the error
is its place and what is wrong, and the place is one of the source. -/
theorem run_reports_stage_and_place (file src : String) : RunOf file src (runSource file src) ∧
    (∀ v, (runSource file src).outcome = .ok v → v.isValid = true) ∧
    ∀ f, (runSource file src).outcome = .error f →
      f.message = f.pos.describe ++ ": " ++ f.detail ∧ f.pos.InSource file src.toList := by
  have hrun := runOf_runSource file src
  obtain ⟨htokens, herror⟩ := scan_places file src
  refine ⟨hrun, ?_, ?_⟩
  · intro v hv
    generalize runSource file src = r at hrun hv
    cases hrun with
    | value hscan hparse heval =>
      obtain rfl := Except.ok.inj hv
      have hx := printable_of_parseSource (parseSource_eq_ok_iff.mpr ⟨_, hscan, hparse⟩)
      obtain ⟨w, hw, hvalid⟩ | ⟨e, he⟩ := hx.eval_cases
      · rw [heval] at hw
        exact Except.ok.inj hw ▸ hvalid
      · simp [heval] at he
    | _ => simp at hv
  · intro f hf
    generalize runSource file src = r at hrun hf
    cases hrun with
    | value => simp at hf
    | scanner hscan =>
      obtain rfl := Except.error.inj hf
      exact ⟨rfl, herror _ hscan⟩
    | parser hscan hparse =>
      obtain rfl := Except.error.inj hf
      exact ⟨rfl, parse_error_place (P := (·.InSource file src.toList)) (terminated_of_scan hscan)
        (htokens _ hscan) hparse⟩
    | interpreter hscan hparse heval =>
      obtain rfl := Except.error.inj hf
      exact ⟨rfl, eval_error_place (P := (·.InSource file src.toList)) (terminated_of_scan hscan)
        (htokens _ hscan) hparse heval⟩

end Pseudocode
