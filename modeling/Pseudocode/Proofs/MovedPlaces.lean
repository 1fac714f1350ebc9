/-
# Texts that stand elsewhere

A text that stands behind another one, or in another file, has the same tokens and the
same tree, value or error, at other places. Which places these are is a map on places
that follows reading (`Pos.Moves`): what is read on from the image of a place leads to
the image of where it led before.

Scanning looks at places only to hand them on, so it commutes with every such map
(`Scanner.tokens_moved`). Parsing and evaluation never read on, and commute with every
map at all: a step of the parser and its halt do (`ParserState.step_moved`,
`ParserState.halt_moved`), and so a run does.

Key definitions: `Pos.Moves`, `Pos.behind`, `Pos.inFile`, `Token.moved`, `Expr.moved`,
`Failure.moved`.
Key theorems: `scan_induction`, `Scanner.tokens_moved`, `parseTokens_moved`,
`Expr.eval_moved`.
-/
import Pseudocode.Pipeline
import Pseudocode.Proofs.ParserState
import Pseudocode.Proofs.Tokenization

namespace Pseudocode

/-! ### Maps on places -/

namespace Pos

/-- Reading a character at the new place of a place leads to the new place of where it
led. Every place of a text is on some line, the first one at least. -/
def Moves (f : Pos → Pos) : Prop :=
  ∀ (p : Pos) (c : Char), 0 < p.line → (f p).advance c = f (p.advance c)

/-- Where a place of a text is when the text stands behind `before`: further down, and
on its first line further to the right. -/
def behind (before : List Char) (p : Pos) : Pos :=
  { p with
    line := p.line + before.count '\n'
    col := if p.line = 1 then p.col + (before.reverse.takeWhile (· ≠ '\n')).length else p.col }

/-- The same place in another file. -/
def inFile (file : String) (p : Pos) : Pos := { p with file }

theorem line_advance_pos {p : Pos} (h : 0 < p.line) (c : Char) : 0 < (p.advance c).line := by
  unfold advance
  split
  · exact Int.lt_add_one_of_le (Int.le_of_lt h)
  · exact h

theorem line_advanceBy_pos {p : Pos} (h : 0 < p.line) (cs : List Char) : 0 < (p.advanceBy cs).line := by
  induction cs generalizing p with
  | nil => exact h
  | cons c cs ih => exact ih (line_advance_pos h c)

theorem Moves.advanceBy {f : Pos → Pos} (hf : Moves f) {p : Pos} (hp : 0 < p.line) (cs : List Char) :
    (f p).advanceBy cs = f (p.advanceBy cs) := by
  induction cs generalizing p with
  | nil => rfl
  | cons c cs ih =>
    have hstep : (f p).advanceBy (c :: cs) = ((f p).advance c).advanceBy cs := rfl
    rw [hstep, hf p c hp]
    exact ih (line_advance_pos hp c)

theorem moves_behind (before : List Char) : Moves (behind before) := by
  intro p c hp
  by_cases hc : c = '\n'
  · -- the next line is not the first one, so its columns stay
    have hline : p.line + 1 ≠ 1 := by omega
    simp only [advance, behind, hc, if_true, if_neg hline, Pos.mk.injEq, true_and, and_true]
    omega
  · by_cases hline : p.line = 1
    · simp only [advance, behind, hc, if_false, hline, if_true, Pos.mk.injEq, true_and]
      omega
    · simp only [advance, behind, hc, if_false, hline]

theorem moves_inFile (file : String) : Moves (inFile file) := by
  intro p c _
  unfold advance
  split <;> rfl

/-- The start of a text behind another one is where that one ends. -/
theorem behind_start (file : String) (before : List Char) :
    (start file).behind before = after file before := by
  simp only [behind, start, after, if_true]

end Pos

/-! ### Moving what stands at places -/

section
variable (f : Pos → Pos)

/-- The token at its new place. -/
def Token.moved (t : Token) : Token := { t with pos := f t.pos }

def ScanError.moved (e : ScanError) : ScanError := { e with pos := f e.pos }

def ParseError.moved (e : ParseError) : ParseError := ⟨e.fault, f e.pos, e.token.moved f⟩

def RuntimeError.moved (e : RuntimeError) : RuntimeError := { e with pos := f e.pos }

def EvalError.moved : EvalError → EvalError
  | .runtime e => .runtime (e.moved f)
  | .unsupported name => .unsupported name

/-- The tree with each node at its new place. -/
def Expr.moved : Expr → Expr
  | .lit p v => .lit (f p) v
  | .unary p op x => .unary (f p) op x.moved
  | .binary p op x y => .binary (f p) op x.moved y.moved
  | .hole => .hole
  | .foreign name => .foreign name

/-- The failure at its new place. -/
def Failure.moved : Failure → Failure
  | .scan e => .scan (e.moved f)
  | .parse e => .parse (e.moved f)
  | .runtime e => .runtime (e.moved f)
  | .plain message => .plain message
  | .context message inner => .context message inner.moved
  | .staged stage inner => .staged stage inner.moved

def PrefixOp.moved (o : PrefixOp) : PrefixOp := ⟨f o.pos, o.op⟩

def Frame.moved : Frame → Frame
  | .binary p op x => .binary (f p) op (x.moved f)
  | .paren ops => .paren (ops.map (PrefixOp.moved f))

def ParserState.moved : ParserState → ParserState
  | .operand frames ops => .operand (frames.map (Frame.moved f)) (ops.map (PrefixOp.moved f))
  | .operator frames x => .operator (frames.map (Frame.moved f)) (x.moved f)

/-- A result with what it gives or the error at new places. -/
def movedResult {ε α : Type} (error : ε → ε) (value : α → α) (r : Except ε α) : Except ε α :=
  (r.map value).mapError error

end

/-! ### Scanning -/

/-- A text is blanks, or blanks and then a character that is none. -/
theorem blanks_or_lexeme (cs : List Char) : (∀ c ∈ cs, isSpacing c) ∨
    ∃ blanks c rest, cs = blanks ++ c :: rest ∧ (∀ d ∈ blanks, isSpacing d) ∧ ¬ isSpacing c := by
  have hblank : ∀ c ∈ cs.takeWhile isSpacing, isSpacing c := fun c hc => List.mem_takeWhile_imp hc
  have happ : cs.takeWhile isSpacing ++ cs.dropWhile isSpacing = cs := List.takeWhile_append_dropWhile
  cases hdrop : cs.dropWhile isSpacing with
  | nil =>
    rw [hdrop, List.append_nil] at happ
    exact .inl (happ ▸ hblank)
  | cons c rest =>
    have hc : ¬ isSpacing c := head?_dropWhile c (by rw [hdrop]; rfl)
    exact .inr ⟨_, c, rest, by rw [← hdrop, happ], hblank, hc⟩

/-- **Induction along the scanner.** A text is blanks only, or one more lexeme in front of
a text that is shorter. -/
theorem scan_induction {P : List Char → Prop} (blank : ∀ cs, (∀ c ∈ cs, isSpacing c) → P cs)
    (lexeme : ∀ blanks c cs, (∀ d ∈ blanks, isSpacing d) → ¬ isSpacing c → P (lexemeAt c cs).rest →
      P (blanks ++ c :: cs)) (cs : List Char) : P cs := by
  induction hn : cs.length using Nat.strong_induction_on generalizing cs with
  | _ n ih =>
    obtain hblank | ⟨blanks, c, rest, rfl, hblanks, hc⟩ := blanks_or_lexeme cs
    · exact blank cs hblank
    · have hlt : (lexemeAt c rest).rest.length < n := by
        have := length_rest_lt c rest
        rw [← hn, List.length_append]
        omega
      exact lexeme blanks c rest hblanks hc (ih _ hlt _ rfl)

theorem Scanner.report_moved (f : Pos → Pos) (start stop : Pos) (m : Meaning) :
    report (f start) (f stop) m = movedResult (ScanError.moved f) (Token.moved f) (report start stop m) := by
  cases m <;> rfl

/-- **Scanning commutes with moving a text.** -/
theorem Scanner.tokens_moved {f : Pos → Pos} (hf : Pos.Moves f) (cs : List Char) : ∀ p : Pos, 0 < p.line →
    (Scanner.mk (f p) cs).tokens =
      movedResult (ScanError.moved f) (List.map (Token.moved f)) (Scanner.mk p cs).tokens := by
  induction cs using scan_induction with
  | blank cs hblank =>
    intro p hp
    rw [tokens_blank _ hblank, tokens_blank _ hblank, hf.advanceBy hp]
    rfl
  | lexeme blanks c cs hblanks hc ih =>
    intro p hp
    have hstart := Pos.line_advanceBy_pos hp blanks
    have hstop := Pos.line_advanceBy_pos hstart (lexemeAt c cs).taken
    rw [tokens_lexeme _ _ hblanks hc rfl, tokens_lexeme _ _ hblanks hc rfl, hf.advanceBy hp,
      hf.advanceBy hstart, report_moved, ih _ hstop]
    -- the first lexeme is an error, or the rest decides
    generalize (Scanner.mk ((p.advanceBy blanks).advanceBy (lexemeAt c cs).taken)
      (lexemeAt c cs).rest).tokens = rest
    rcases report (p.advanceBy blanks) _ (lexemeAt c cs).meaning with e | t
    · rfl
    · cases rest <;> rfl

/-- A text behind another one has its tokens further on, and fails further on. -/
theorem Scanner.tokens_behind (file : String) (before cs : List Char) :
    (Scanner.mk (.after file before) cs).tokens =
      movedResult (ScanError.moved (Pos.behind before)) (List.map (Token.moved (Pos.behind before)))
        (Scanner.mk (.start file) cs).tokens := by
  rw [← Pos.behind_start]
  exact tokens_moved (Pos.moves_behind before) cs (.start file) Int.one_pos

/-- The name of a file is all that a source takes from it. -/
theorem scan_inFile (file src : String) : scan file src =
    movedResult (ScanError.moved (Pos.inFile file)) (List.map (Token.moved (Pos.inFile file)))
      (scan "" src) :=
  Scanner.tokens_moved (Pos.moves_inFile file) src.toList (.start "") Int.one_pos

/-! ### Parsing -/

section
variable (f : Pos → Pos)

theorem applyPrefix_moved (ops : List PrefixOp) (x : Expr) :
    applyPrefix (ops.map (PrefixOp.moved f)) (x.moved f) = (applyPrefix ops x).moved f := by
  induction ops generalizing x with
  | nil => rfl
  | cons o ops ih => exact ih (.unary o.pos o.op x)

theorem closeTighter_moved (level : Nat) : ∀ (frames : List Frame) (y : Expr),
    closeTighter level (frames.map (Frame.moved f)) (y.moved f) =
      ((closeTighter level frames y).1.map (Frame.moved f), (closeTighter level frames y).2.moved f)
  | [], _ => rfl
  | .paren _ :: _, _ => rfl
  | .binary p op x :: frames, y => by
    have ih := closeTighter_moved level frames (.binary p op x y)
    simp only [List.map_cons, Frame.moved, closeTighter]
    split
    · exact ih
    · rfl

theorem closeAll_moved : ∀ (frames : List Frame) (y : Expr),
    closeAll (frames.map (Frame.moved f)) (y.moved f) =
      ((closeAll frames y).1.moved f, (closeAll frames y).2.map fun below =>
        (below.1.map (PrefixOp.moved f), below.2.map (Frame.moved f)))
  | [], _ => rfl
  | .paren _ :: _, _ => rfl
  | .binary p op x :: frames, y => closeAll_moved frames (.binary p op x y)

namespace ParserState

theorem step_moved (s : ParserState) (t : Token) :
    (s.moved f).step (t.moved f) = (s.step t).map (ParserState.moved f) := by
  cases s with
  | operand frames ops =>
    simp only [moved, step, Token.moved]
    split
    · simp only [Option.map_some, moved, ← applyPrefix_moved]
      rfl
    all_goals rfl
  | operator frames x =>
    simp only [moved, step, Token.moved, closeTighter_moved, closeAll_moved]
    split
    · rfl
    · rcases closeAll frames x with ⟨y, _ | ⟨ops, below⟩⟩
      · rfl
      · simp only [Option.map_some]
        split
        · simp only [Option.map_some, moved, applyPrefix_moved]
        · rfl

theorem halt_moved (s : ParserState) (t : Token) :
    (s.moved f).halt (t.moved f) = movedResult (ParseError.moved f) (Expr.moved f) (s.halt t) := by
  cases s with
  | operand frames ops => rfl
  | operator frames x =>
    simp only [moved, halt, closeAll_moved]
    rcases closeAll frames x with ⟨y, _ | ⟨ops, below⟩⟩ <;> rfl

/-- A run on moved tokens is the run, moved. -/
theorem run_moved (stop : Token) : ∀ (ts : List Token) (s : ParserState),
    (s.moved f).run (stop.moved f) (ts.map (Token.moved f)) =
      (movedResult (ParseError.moved f) (Expr.moved f) (s.run stop ts).1,
        (s.run stop ts).2.map (Token.moved f))
  | [], s => by rw [List.map_nil, run_nil, run_nil, halt_moved, List.map_nil]
  | t :: ts, s => by
    rw [List.map_cons, run_cons, run_cons, step_moved]
    cases s.step t with
    | none => rw [Option.map_none, halt_moved]; rfl
    | some s' => exact run_moved stop ts s'

end ParserState

theorem dropWhile_newline_moved (ts : List Token) : (ts.map (Token.moved f)).dropWhile (·.kind = .newline) =
    (ts.dropWhile (·.kind = .newline)).map (Token.moved f) := by
  rw [List.dropWhile_map]
  rfl

open TokenStream in
/-- **Parsing commutes with moving the tokens.** -/
theorem parseTokens_moved {ts : List Token} (hts : Terminated ts) : parseTokens (ts.map (Token.moved f)) =
    movedResult (ParseError.moved f) (Expr.moved f) (parseTokens ts) := by
  obtain ⟨body, stop, rfl, hbody, hstop⟩ := hts
  obtain ⟨m, rest, rfl, hm, hrest⟩ := exists_newlines body
  have hbody' : ∀ t ∈ (m ++ rest).map (Token.moved f), t.kind ≠ .eof := List.forall_mem_map.mpr hbody
  have hm' : ∀ t ∈ m.map (Token.moved f), t.kind = .newline := List.forall_mem_map.mpr hm
  have hrest' : ∀ t ∈ (rest.map (Token.moved f)).head?, t.kind ≠ .newline := by
    cases rest with
    | nil => simp
    | cons t rest => rintro _ ⟨⟩; exact hrest t rfl
  have hrun := ParserState.run_moved f stop rest .start
  rw [List.map_append, List.map_singleton, parseTokens, parseTokens, ofTokens_eof hbody hstop,
    ofTokens_eof hbody' (t := stop.moved f) hstop, List.map_append, parse_eq_run hm hrest,
    parse_eq_run hm' hrest']
  have hstart : ParserState.start.moved f = .start := rfl
  rw [hstart] at hrun
  rw [hrun]
  rcases ParserState.start.run stop rest with ⟨e | x, left⟩
  · rfl
  · simp only [movedResult, Except.map, Except.mapError, dropWhile_newline_moved]
    cases left.dropWhile (·.kind = .newline) <;> rfl

/-! ### Evaluation -/

theorem unaryAt_moved (p : Pos) (op : TokenKind) (v : Value) :
    unaryAt (f p) op v = (unaryAt p op v).mapError (EvalError.moved f) := by
  unfold unaryAt
  cases applyUnary op v <;> rfl

theorem binaryAt_moved (p : Pos) (op : TokenKind) (v w : Value) :
    binaryAt (f p) op v w = (binaryAt p op v w).mapError (EvalError.moved f) := by
  unfold binaryAt
  cases applyBinary op v w <;> rfl

/-- **Evaluation commutes with moving the tree**, and only an error tells of it. -/
theorem Expr.eval_moved (x : Expr) : (x.moved f).eval = x.eval.mapError (EvalError.moved f) := by
  induction x with
  | lit | hole | foreign => rfl
  | unary p op x ih =>
    rw [moved, eval, eval, ih]
    cases x.eval with
    | error => rfl
    | ok v => exact unaryAt_moved f p op v
  | binary p op x y ihx ihy =>
    rw [moved, eval, eval, ihx, ihy]
    cases x.eval with
    | error => rfl
    | ok v =>
      cases y.eval with
      | error => rfl
      | ok w => exact binaryAt_moved f p op v w

end

end Pseudocode
