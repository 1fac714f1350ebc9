/-
# The parser between two tokens

Between two tokens the parser is in one of two states: an operand has to come,
after some prefix operators, or an operand has just been read. In both it holds
the frames that are not closed yet. A state reads a token (`step`) or halts at it
(`halt`), and parsing is a run of steps up to the first token that is not read
(`run_eq_halt`). So whatever every step keeps, every run keeps
(`after_invariant`), and nothing beyond the token where a run halts can change
what it reports.

Key definitions: `ParserState`, `ParserState.step`, `ParserState.halt`,
`ParserState.after`, `ParserState.depth`, `ParserState.closers`.
Key theorems: `ParserState.run_append`, `ParserState.exists_halt`,
`ParserState.after_invariant`, `ParserState.after_depth`,
`ParserState.run_closers`, `TokenStream.parse_eq_run`.
-/
import Mathlib.Data.List.TakeWhile
import Pseudocode.Expr.Parser

namespace Pseudocode

/-- What the parser is about to read. -/
inductive ParserState where
  /-- An operand, after the prefix operators `ops`, innermost first. -/
  | operand (frames : List Frame) (ops : List PrefixOp)
  /-- What comes after the operand `x`. -/
  | operator (frames : List Frame) (x : Expr)

namespace ParserState

/-- The parser before the first token of an expression. -/
def start : ParserState := operand [] []

/-- Parses on from a state. -/
def run (stop : Token) : ParserState → List Token → Parsed
  | operand frames ops, ts => operandAt stop frames ops ts
  | operator frames x, ts => operatorAt stop frames x ts

/-- Reads one token, if the expression can go on with it. -/
def step : ParserState → Token → Option ParserState
  | operand frames ops, t =>
    match t.kind with
    | .literal => some (operator frames (applyPrefix ops (.lit t.pos t.value)))
    | .notOp | .andOp | .minus => some (operand frames (⟨t.pos, t.kind⟩ :: ops))
    | .leftParen => some (operand (.paren ops :: frames) [])
    | _ => none
  | operator frames x, t =>
    if 0 < t.kind.precedence then
      let (frames, x) := closeTighter t.kind.precedence frames x
      some (operand (.binary t.pos t.kind x :: frames) [])
    else
      match closeAll frames x with
      | (_, none) => none
      | (x, some (ops, frames)) =>
        if t.kind = .rightParen then some (operator frames (applyPrefix ops x)) else none

/-- What is reported at a token that is not read. -/
def halt : ParserState → Token → Except ParseError Expr
  | operand _ _, t => .error (.ofToken .unexpectedToken t)
  | operator frames x, t =>
    match closeAll frames x with
    | (x, none) => .ok x
    | (_, some _) => .error (.ofToken .expectedRightParen t)

/-- Reads tokens one after the other. -/
def after (s : ParserState) : List Token → Option ParserState
  | [] => some s
  | t :: ts => (s.step t).bind (·.after ts)

/-! ### A run is a sequence of steps and a halt -/

theorem run_nil (stop : Token) (s : ParserState) : s.run stop [] = (s.halt stop, []) := by
  cases s with
  | operand frames ops => simp [run, halt, operandAt]
  | operator frames x =>
    simp only [run, halt, operatorAt]
    rcases closeAll frames x with ⟨y, _ | _⟩ <;> rfl

theorem run_cons (stop : Token) (s : ParserState) (t : Token) (ts : List Token) :
    s.run stop (t :: ts) =
      match s.step t with
      | some s' => s'.run stop ts
      | none => (s.halt t, t :: ts) := by
  cases s with
  | operand frames ops =>
    simp only [run, step, halt, operandAt]
    cases t.kind <;> rfl
  | operator frames x =>
    simp only [run, step, halt, operatorAt]
    by_cases hp : 0 < t.kind.precedence
    · simp [hp]
    · simp only [if_neg hp]
      rcases closeAll frames x with ⟨y, _ | ⟨ops, frames'⟩⟩
      · rfl
      · by_cases hr : t.kind = .rightParen
        · simp [hr]
        · simp [hr]

/-- Tokens that are all read leave the rest of the run as it is. -/
theorem run_append (stop : Token) : ∀ {s s' : ParserState} (read rest : List Token),
    s.after read = some s' → s.run stop (read ++ rest) = s'.run stop rest
  | s, s', [], rest, h => by
    obtain rfl : s = s' := by simpa [after] using h
    rfl
  | s, s', t :: read, rest, h => by
    obtain ⟨s₁, h₁, h₂⟩ := Option.bind_eq_some_iff.mp h
    rw [List.cons_append, run_cons, h₁]
    exact run_append stop read rest h₂

/-- A run that reads `read` and cannot go on reports what stands there: the next
token, or the end token if there is none. -/
theorem run_eq_halt (stop : Token) {s s' : ParserState} (read rest : List Token)
    (h : s.after read = some s') (hrest : ∀ t ∈ rest.head?, s'.step t = none) :
    s.run stop (read ++ rest) = (s'.halt (rest.headD stop), rest) := by
  rw [run_append stop read rest h]
  cases rest with
  | nil => exact run_nil stop s'
  | cons t ts => rw [run_cons, hrest t rfl]; rfl

/-- Every run reads some tokens and then halts. -/
theorem exists_halt : ∀ (s : ParserState) (ts : List Token), ∃ read rest s',
    ts = read ++ rest ∧ s.after read = some s' ∧ ∀ t ∈ rest.head?, s'.step t = none
  | s, [] => ⟨[], [], s, rfl, rfl, by simp⟩
  | s, t :: ts => by
    cases ht : s.step t with
    | none => exact ⟨[], t :: ts, s, rfl, rfl, by simpa using ht⟩
    | some s₁ =>
      obtain ⟨read, rest, s', rfl, h, hrest⟩ := exists_halt s₁ ts
      exact ⟨t :: read, rest, s', rfl, by simp [after, ht, h], hrest⟩

/-- **What every step keeps, every run keeps.** The property may speak of the
tokens read so far. -/
theorem after_invariant {P : List Token → ParserState → Prop}
    (hstep : ∀ v s t s', P v s → s.step t = some s' → P (v ++ [t]) s') :
    ∀ {s s' : ParserState} (ts v : List Token), P v s → s.after ts = some s' → P (v ++ ts) s'
  | s, s', [], v, hs, h => by
    obtain rfl : s = s' := by simpa [after] using h
    simpa using hs
  | s, s', t :: ts, v, hs, h => by
    obtain ⟨s₁, h₁, h₂⟩ := Option.bind_eq_some_iff.mp h
    simpa using after_invariant hstep ts (v ++ [t]) (hstep v s t s₁ hs h₁) h₂

/-- All that a step can do. -/
theorem step_cases {s s' : ParserState} {t : Token} (h : s.step t = some s') :
    (∃ frames ops, s = operand frames ops ∧
      ((t.kind = .literal ∧ s' = operator frames (applyPrefix ops (.lit t.pos t.value))) ∨
        (t.kind ∈ [.notOp, .andOp, .minus] ∧ s' = operand frames (⟨t.pos, t.kind⟩ :: ops)) ∨
        (t.kind = .leftParen ∧ s' = operand (.paren ops :: frames) []))) ∨
    (∃ frames x, s = operator frames x ∧
      ((0 < t.kind.precedence ∧ s' = operand (.binary t.pos t.kind
            (closeTighter t.kind.precedence frames x).2 ::
              (closeTighter t.kind.precedence frames x).1) []) ∨
        (t.kind = .rightParen ∧ ∃ y ops below, closeAll frames x = (y, some (ops, below)) ∧
          s' = operator below (applyPrefix ops y)))) := by
  cases s with
  | operand frames ops =>
    refine .inl ⟨frames, ops, rfl, ?_⟩
    simp only [step] at h
    split at h <;> simp_all
  | operator frames x =>
    refine .inr ⟨frames, x, rfl, ?_⟩
    simp only [step] at h
    split at h
    · next hp => exact .inl ⟨hp, by simpa using h.symm⟩
    · rcases hc : closeAll frames x with ⟨y, _ | ⟨ops, below⟩⟩
      · simp [hc] at h
      · simp only [hc] at h
        split at h
        · next hr => exact .inr ⟨hr, y, ops, below, rfl, by simpa using h.symm⟩
        · simp at h

/-! ### Open parentheses

Every step tells from its token alone whether an operand has just been read, and
how many parentheses are open. -/

/-- The number of open parentheses among frames. -/
def openParens : List Frame → Nat
  | [] => 0
  | .binary _ _ _ :: frames => openParens frames
  | .paren _ :: frames => openParens frames + 1

/-- The number of open parentheses. -/
def depth : ParserState → Nat
  | operand frames _ => openParens frames
  | operator frames _ => openParens frames

/-- Whether an operand has just been read. -/
def afterOperand : ParserState → Bool
  | operand _ _ => false
  | operator _ _ => true

theorem openParens_closeTighter (level : Nat) : ∀ (frames : List Frame) (x : Expr),
    openParens (closeTighter level frames x).1 = openParens frames
  | [], _ => rfl
  | .paren _ :: _, _ => rfl
  | .binary p op x :: frames, y => by
    rw [closeTighter]
    split
    · exact openParens_closeTighter level frames _
    · rfl

/-- Closing all binary operators finds the innermost parenthesis, if one is
open. -/
theorem openParens_closeAll : ∀ (frames : List Frame) (x : Expr),
    openParens frames = ((closeAll frames x).2.map fun below => openParens below.2 + 1).getD 0
  | [], _ => rfl
  | .paren _ :: _, _ => rfl
  | .binary p op x :: frames, y => openParens_closeAll frames (.binary p op x y)

theorem closeAll_of_openParens_eq_zero {frames : List Frame} (h : openParens frames = 0) (x : Expr) :
    ∃ y, closeAll frames x = (y, none) := by
  have hc := openParens_closeAll frames x
  rcases hf : closeAll frames x with ⟨y, _ | ⟨ops, below⟩⟩
  · exact ⟨y, rfl⟩
  · simp only [hf, Option.map_some, Option.getD_some] at hc
    omega

theorem closeAll_of_openParens_pos {frames : List Frame} (h : 0 < openParens frames) (x : Expr) :
    ∃ y ops below, closeAll frames x = (y, some (ops, below)) ∧
      openParens frames = openParens below + 1 := by
  have hc := openParens_closeAll frames x
  rcases hf : closeAll frames x with ⟨y, _ | ⟨ops, below⟩⟩
  · simp only [hf, Option.map_none, Option.getD_none] at hc
    omega
  · simp only [hf, Option.map_some, Option.getD_some] at hc
    exact ⟨y, ops, below, rfl, hc⟩

theorem step_afterOperand {s s' : ParserState} {t : Token} (h : s.step t = some s') :
    s'.afterOperand = true ↔ t.kind = .literal ∨ t.kind = .rightParen := by
  obtain ⟨frames, ops, rfl, ⟨ht, rfl⟩ | ⟨ht, rfl⟩ | ⟨ht, rfl⟩⟩ |
    ⟨frames, x, rfl, ⟨ht, rfl⟩ | ⟨ht, y, ops, below, -, rfl⟩⟩ := step_cases h
  · simp [afterOperand, ht]
  · simp only [List.mem_cons, List.not_mem_nil, or_false] at ht
    rcases ht with ht | ht | ht <;> simp [afterOperand, ht]
  · simp [afterOperand, ht]
  · simp only [afterOperand, Bool.false_eq_true, false_iff]
    rintro (hk | hk) <;> simp [hk, TokenKind.precedence] at ht
  · simp [afterOperand, ht]

theorem step_depth {s s' : ParserState} {t : Token} (h : s.step t = some s') :
    s'.depth + [t].countP (·.kind = .rightParen) = s.depth + [t].countP (·.kind = .leftParen) := by
  obtain ⟨frames, ops, rfl, ⟨ht, rfl⟩ | ⟨ht, rfl⟩ | ⟨ht, rfl⟩⟩ |
    ⟨frames, x, rfl, ⟨ht, rfl⟩ | ⟨ht, y, ops, below, hc, rfl⟩⟩ := step_cases h
  · simp [depth, ht]
  · simp only [List.mem_cons, List.not_mem_nil, or_false] at ht
    rcases ht with ht | ht | ht <;> simp [depth, ht]
  · simp [depth, openParens, ht]
  · have hr : t.kind ≠ .rightParen := fun hk => by simp [hk, TokenKind.precedence] at ht
    have hl : t.kind ≠ .leftParen := fun hk => by simp [hk, TokenKind.precedence] at ht
    simp [depth, openParens, openParens_closeTighter, hr, hl]
  · have hd := openParens_closeAll frames x
    simp only [hc, Option.map_some, Option.getD_some] at hd
    simp [depth, ht, hd]

/-- The open parentheses are those that the tokens read have opened and not
closed. -/
theorem after_depth {s s' : ParserState} {ts : List Token} (h : s.after ts = some s') :
    s'.depth + ts.countP (·.kind = .rightParen) = s.depth + ts.countP (·.kind = .leftParen) := by
  refine after_invariant (P := fun v s' => s'.depth + v.countP (·.kind = .rightParen) =
    s.depth + v.countP (·.kind = .leftParen)) ?_ ts [] rfl h
  intro v s₁ t s₂ hv hs
  have := step_depth hs
  simp only [List.countP_append]
  omega

/-- An operand has just been read exactly after a literal or a closing
parenthesis. -/
theorem after_afterOperand {s : ParserState} {ts : List Token} (h : start.after ts = some s) :
    s.afterOperand = true ↔ ∃ t ∈ ts.getLast?, t.kind = .literal ∨ t.kind = .rightParen := by
  refine after_invariant (P := fun v s => s.afterOperand = true ↔
    ∃ t ∈ v.getLast?, t.kind = .literal ∨ t.kind = .rightParen) ?_ ts [] (by simp [start, afterOperand]) h
  intro v s₁ t s₂ _ hs
  simp [step_afterOperand hs]

/-- No expression reads a newline or an end token. -/
theorem step_eq_none {t : Token} (ht : t.kind = .newline ∨ t.kind = .eof) (s : ParserState) :
    s.step t = none := by
  cases hs : s.step t with
  | none => rfl
  | some s' =>
    exfalso
    obtain ⟨_, _, -, ⟨h, -⟩ | ⟨h, -⟩ | ⟨h, -⟩⟩ | ⟨_, _, -, ⟨h, -⟩ | ⟨h, -⟩⟩ := step_cases hs <;>
      rcases ht with ht | ht <;> simp [ht, TokenKind.precedence] at h

/-- Where a run halts, the state alone tells the error: an operand is missing, or
it stands inside a parenthesis. -/
theorem halt_eq_error {s : ParserState} {t : Token} {e : ParseError} (h : s.halt t = .error e) :
    (e = .ofToken .unexpectedToken t ∧ s.afterOperand = false) ∨
      (e = .ofToken .expectedRightParen t ∧ s.afterOperand = true ∧ 0 < s.depth) := by
  cases s with
  | operand frames ops => exact .inl ⟨by simpa [halt] using h.symm, rfl⟩
  | operator frames x =>
    have hd := openParens_closeAll frames x
    rcases hc : closeAll frames x with ⟨y, _ | ⟨ops, below⟩⟩
    · simp [halt, hc] at h
    · simp only [hc, Option.map_some, Option.getD_some] at hd
      exact .inr ⟨by simpa [halt, hc] using h.symm, rfl, by simp only [depth]; omega⟩

/-- Where a run halts with an expression, no parenthesis is open. -/
theorem halt_eq_ok {s : ParserState} {t : Token} {x : Expr} (h : s.halt t = .ok x) :
    s.afterOperand = true ∧ s.depth = 0 ∧ ∀ t', s.halt t' = .ok x := by
  cases s with
  | operand frames ops => simp [halt] at h
  | operator frames y =>
    have hd := openParens_closeAll frames y
    rcases hc : closeAll frames y with ⟨z, _ | ⟨ops, below⟩⟩
    · simp only [hc, Option.map_none, Option.getD_none] at hd
      exact ⟨rfl, hd, fun t' => by simpa [halt, hc] using h⟩
    · simp [halt, hc] at h

/-! ### Every state can be completed -/

/-- Closing parentheses as many as are open, after a literal if an operand has to
come. -/
def closers (s : ParserState) : List Token :=
  (if s.afterOperand then [] else [{ kind := .literal }]) ++
    List.replicate s.depth { kind := .rightParen }

theorem run_closers_operator (stop : Token) : ∀ (n : Nat) (frames : List Frame) (x : Expr),
    openParens frames = n →
      ∃ y, (operator frames x).run stop (List.replicate n { kind := .rightParen }) = (.ok y, [])
  | 0, frames, x, hn => by
    obtain ⟨y, hy⟩ := closeAll_of_openParens_eq_zero hn x
    exact ⟨y, by rw [List.replicate_zero, run_nil]; simp [halt, hy]⟩
  | n + 1, frames, x, hn => by
    obtain ⟨y, ops, below, hc, hd⟩ := closeAll_of_openParens_pos (by omega : 0 < openParens frames) x
    have hstep : (operator frames x).step { kind := .rightParen } =
        some (operator below (applyPrefix ops y)) := by
      simp [step, TokenKind.precedence, hc]
    rw [List.replicate_succ, run_cons, hstep]
    exact run_closers_operator stop n below _ (by omega)

/-- **Every state can be completed to an expression.** -/
theorem run_closers (stop : Token) (s : ParserState) :
    ∃ x, s.run stop s.closers = (.ok x, []) := by
  cases s with
  | operand frames ops => exact run_closers_operator stop _ frames _ rfl
  | operator frames x => exact run_closers_operator stop _ frames x rfl

theorem kind_of_mem_closers {s : ParserState} {t : Token} (h : t ∈ s.closers) :
    t.kind = .literal ∨ t.kind = .rightParen := by
  simp only [closers, List.mem_append, List.mem_replicate] at h
  rcases h with h | ⟨-, rfl⟩
  · split at h <;> simp_all
  · exact .inr rfl

end ParserState

/-! ### Streams

Parsing a stream skips the newlines in front, runs to a halt, and after a whole
expression skips newlines again. -/

/-- The end token stands last, and nowhere else. -/
def Terminated (ts : List Token) : Prop :=
  ∃ body stop, ts = body ++ [stop] ∧ (∀ t ∈ body, t.kind ≠ .eof) ∧ stop.kind = .eof

namespace TokenStream

/-- The tokens from where the stream stands, with the end token. -/
def remaining (s : TokenStream) : List Token := s.ahead ++ [s.stop]

theorem takeWhile_eof_append {v : List Token} (hv : ∀ t ∈ v, t.kind ≠ .eof) (ts : List Token) :
    (v ++ ts).takeWhile (·.kind ≠ .eof) = v ++ ts.takeWhile (·.kind ≠ .eof) :=
  List.takeWhile_append_of_pos (by simpa using hv)

/-- Reading stops at the first end token. -/
theorem ofTokens_eof {v : List Token} (hv : ∀ t ∈ v, t.kind ≠ .eof) {t : Token} (ht : t.kind = .eof)
    (rest : List Token) : ofTokens (v ++ t :: rest) = ⟨v, t⟩ := by
  have hdrop : (v ++ t :: rest).dropWhile (·.kind ≠ .eof) = t :: rest := by
    rw [List.dropWhile_append_of_pos (by simpa using hv), List.dropWhile_cons_of_neg (by simpa using ht)]
  unfold ofTokens
  rw [takeWhile_eof_append hv, hdrop, List.takeWhile_cons_of_neg (by simpa using ht), List.append_nil]

/-- Tokens that are no end tokens stand ahead, and the stream comes to the token
after them, whether it is the end token or not. -/
theorem ofTokens_append {v : List Token} (hv : ∀ t ∈ v, t.kind ≠ .eof) (t : Token) (rest : List Token) :
    ∃ w stop, ofTokens (v ++ t :: rest) = ⟨v ++ w, stop⟩ ∧ w.headD stop = t ∧
      (w = [] → t.kind = .eof) := by
  by_cases ht : t.kind = .eof
  · exact ⟨[], t, by rw [ofTokens_eof hv ht, List.append_nil], rfl, fun _ => ht⟩
  · refine ⟨t :: rest.takeWhile (·.kind ≠ .eof), (ofTokens (v ++ t :: rest)).stop, ?_, rfl, by simp⟩
    rw [← List.takeWhile_cons_of_pos (by simpa using ht), ← takeWhile_eof_append hv]
    rfl

theorem dropWhile_newline_append {m ts : List Token} (hm : ∀ t ∈ m, t.kind = .newline)
    (hts : ∀ t ∈ ts.head?, t.kind ≠ .newline) : (m ++ ts).dropWhile (·.kind = .newline) = ts := by
  rw [List.dropWhile_append_of_pos (by simpa using hm)]
  cases ts with
  | nil => rfl
  | cons t ts => rw [List.dropWhile_cons_of_neg (by simpa using hts t rfl)]

/-- Tokens split at the newlines in front of them. -/
theorem exists_newlines (ts : List Token) : ∃ m rest, ts = m ++ rest ∧
    (∀ t ∈ m, t.kind = .newline) ∧ ∀ t ∈ rest.head?, t.kind ≠ .newline := by
  refine ⟨ts.takeWhile (·.kind = .newline), ts.dropWhile (·.kind = .newline),
    List.takeWhile_append_dropWhile.symm, fun t ht => ?_, fun t ht => ?_⟩
  · simpa using List.mem_takeWhile_imp ht
  · have := List.head?_dropWhile_not (fun t : Token => decide (t.kind = .newline)) ts
    rw [Option.mem_def.mp ht] at this
    simpa using this

/-- After the newlines in front, parsing is a run from the start. -/
theorem parse_eq_run {stop : Token} {m ts : List Token} (hm : ∀ t ∈ m, t.kind = .newline)
    (hts : ∀ t ∈ ts.head?, t.kind ≠ .newline) :
    (⟨m ++ ts, stop⟩ : TokenStream).parse =
      match ParserState.start.run stop ts with
      | (.error e, rest) => (.error e, ⟨rest, stop⟩)
      | (.ok x, rest) =>
        match rest.dropWhile (·.kind = .newline) with
        | [] => (.ok x, ⟨[], stop⟩)
        | t :: ts => (.error (.ofToken .unexpectedToken t), ⟨t :: ts, stop⟩) := by
  simp only [parse, parseExpr, skipNewlines, dropWhile_newline_append hm hts, ParserState.start,
    ParserState.run]
  rcases operandAt stop [] [] ts with ⟨_ | x, rest⟩
  · rfl
  · simp only
    cases rest.dropWhile (·.kind = .newline) <;> rfl

theorem ne_eof_append {m ts : List Token} (hm : ∀ t ∈ m, t.kind = .newline)
    (hts : ∀ t ∈ ts, t.kind ≠ .eof) : ∀ t ∈ m ++ ts, t.kind ≠ .eof := by
  simp only [List.mem_append]
  rintro t (ht | ht)
  · simp [hm t ht]
  · exact hts t ht

/-- Tokens that are read after newlines and run to an expression are accepted, with
newlines behind them as well. -/
theorem parseTokens_eq_ok {m ts n : List Token} {stop : Token} {x : Expr}
    (hm : ∀ t ∈ m, t.kind = .newline) (hts : ∀ t ∈ (ts ++ n).head?, t.kind ≠ .newline)
    (hn : ∀ t ∈ n, t.kind = .newline) (heof : ∀ t ∈ ts, t.kind ≠ .eof) (hstop : stop.kind = .eof)
    (hrun : ParserState.start.run stop (ts ++ n) = (.ok x, n)) :
    Terminated (m ++ (ts ++ n) ++ [stop]) ∧ parseTokens (m ++ (ts ++ n) ++ [stop]) = .ok x := by
  have hbody : ∀ t ∈ m ++ (ts ++ n), t.kind ≠ .eof := ne_eof_append hm <| by
    simp only [List.mem_append]
    rintro t (ht | ht)
    · exact heof t ht
    · simp [hn t ht]
  refine ⟨⟨_, _, rfl, hbody, hstop⟩, ?_⟩
  have hdrop : n.dropWhile (·.kind = .newline) = [] := by simpa using hn
  rw [parseTokens, ofTokens_eof hbody hstop, parse_eq_run hm hts, hrun]
  simp only [hdrop]

end TokenStream

end Pseudocode
