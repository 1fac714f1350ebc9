/-
# The parser as a cursor in a token list

A parser can be kept as a token list, the index of the current token and that token. It
reads by recursive descent: one routine for each kind of part, and a loop for the binary
operators (`TokenCursor.binaryExpr`). Two things could go wrong that are no syntax errors. The
index could leave the list, and the descent could go on for ever, as its routines call each
other with the same arguments; here it is given a number of steps to make. Neither happens,
whatever the tokens are: the list gets an end token if it has none at its end, no routine reads
behind an end token, and between two calls of the same routine a token is read
(`operand_descends` and the lemmas behind it).

The descent and the stack of frames come to the same. A routine that returns a tree stands
for a run of the parser from an operand to what follows it, below any frames that bind no
tighter than the routine (`Runs`), so that both give the same trees and the same errors and
stop at the same token (`parse_cursorAt`). What is known of the one is then known of the
other, for any number of calls (`parser_cursor_is_safe`).

Key definitions: `TokenCursor`, `TokenCursor.next`, `TokenCursor.binaryExpr`, `TokenCursor.call`,
`cursorAt`, `Runs`.
Key theorems: `operators_descend`, `descends`, `parseExpr_cursorAt`, `parse_cursorAt`, `calls_cursorAt`,
`parser_cursor_is_safe`.
-/
import Pseudocode.Proofs.Grammar

namespace Pseudocode

/-- What would end a call without a tree and without a syntax error. -/
inductive CursorCrash where
  /-- There is no token at the index. -/
  | outOfRange (index : Nat)
  /-- The steps given do not suffice. -/
  | unfinished
deriving Repr, DecidableEq

/-- A token list and a place in it. -/
structure TokenCursor where
  tokens : List Token
  /-- The index of the current token. -/
  index : Nat
  /-- The current token. -/
  token : Token
deriving Repr

/-- The list with an end token behind it, if its last token is none. -/
def closedList (ts : List Token) : List Token :=
  if ts.getLast?.any (·.kind = .eof) then ts else ts ++ [TokenStream.impliedStop ts]

/-- What a routine gives: a tree or a syntax error, and the cursor where it stopped. -/
abbrev Descent := Except CursorCrash (Except ParseError Expr × TokenCursor)

namespace TokenCursor

/-- The cursor at an index of a list. -/
def moveTo (tokens : List Token) (index : Nat) : Except CursorCrash TokenCursor :=
  match tokens[index]? with
  | some t => .ok ⟨tokens, index, t⟩
  | none => .error (.outOfRange index)

/-- The cursor at the front of a list. -/
def ofTokens (ts : List Token) : Except CursorCrash TokenCursor := moveTo (closedList ts) 0

/-- The cursor on the next token. It stays on an end token. -/
def next (c : TokenCursor) : Except CursorCrash TokenCursor :=
  if c.token.kind = .eof then .ok c else moveTo c.tokens (c.index + 1)

/-- Whether the current token is of a kind; if so, it is read. -/
def got (k : TokenKind) (c : TokenCursor) : Except CursorCrash (Bool × TokenCursor) :=
  if c.token.kind = k then c.next.map (true, ·) else .ok (false, c)

/-- Reads newlines. -/
def skipNewlines : Nat → TokenCursor → Except CursorCrash TokenCursor
  | 0, _ => .error .unfinished
  | n + 1, c => do
    let (found, c) ← c.got .newline
    if found then skipNewlines n c else .ok c

/-- Goes on with the tree of a routine; an error is handed on. -/
def thenTree (d : Descent) (f : Expr → TokenCursor → Descent) : Descent :=
  d.bind fun
    | (.error e, c) => .ok (.error e, c)
    | (.ok x, c) => f x c

mutual

/-- A binary expression whose operators all bind tighter than `level`. -/
def binaryExpr : Nat → Nat → TokenCursor → Descent
  | 0, _, _ => .error .unfinished
  | n + 1, level, c => thenTree (unaryExpr n c) (operators n level)

/-- The operators that bind tighter than `level`, with their right operands, behind the left
operand `x`. -/
def operators : Nat → Nat → Expr → TokenCursor → Descent
  | 0, _, _, _ => .error .unfinished
  | n + 1, level, x, c =>
    if c.token.kind.precedence ≤ level then .ok (.ok x, c)
    else c.next.bind fun c' =>
      thenTree (binaryExpr n c.token.kind.precedence c') fun y c'' =>
        operators n level (.binary c.token.pos c.token.kind x y) c''

/-- Prefix operators and their operand. -/
def unaryExpr : Nat → TokenCursor → Descent
  | 0, _ => .error .unfinished
  | n + 1, c =>
    if c.token.kind ∈ prefixOperators then
      c.next.bind fun c' =>
        thenTree (unaryExpr n c') fun x c'' => .ok (.ok (.unary c.token.pos c.token.kind x), c'')
    else operand n c

/-- A literal, or an expression in parentheses. -/
def operand : Nat → TokenCursor → Descent
  | 0, _ => .error .unfinished
  | n + 1, c =>
    if c.token.kind = .literal then c.next.map (.ok (.lit c.token.pos c.token.value), ·)
    else if c.token.kind = .leftParen then
      c.next.bind fun c' =>
        thenTree (binaryExpr n 0 c') fun x c'' => (c''.got .rightParen).map fun
          | (true, c''') => (.ok x, c''')
          | (false, c''') => (.error (.ofToken .expectedRightParen c'''.token), c''')
    else .ok (.error (.ofToken .unexpectedToken c.token), c)

end

/-- Parses one expression from the current token, and stops on the first token after it. -/
def parseExpr (n : Nat) (c : TokenCursor) : Descent := binaryExpr n 0 c

/-- Parses one expression up to the end, with newlines allowed on either side. -/
def parse (n : Nat) (c : TokenCursor) : Descent :=
  (c.skipNewlines n).bind fun c => thenTree (c.parseExpr n) fun x c =>
    (c.skipNewlines n).map fun c =>
      if c.token.kind = .eof then (.ok x, c) else (.error (.ofToken .unexpectedToken c.token), c)

end TokenCursor

/-! ### Calls -/

/-- What a parser can be asked for. -/
inductive ParserCall where
  /-- One expression. -/
  | expression
  /-- One expression and nothing but newlines around it. -/
  | whole
deriving Repr, DecidableEq

def TokenStream.call (s : TokenStream) : ParserCall → Except ParseError Expr × TokenStream
  | .expression => s.parseExpr
  | .whole => s.parse

/-- The results of calls one after the other, also after errors. -/
def TokenStream.calls (s : TokenStream) : List ParserCall → List (Except ParseError Expr) × TokenStream
  | [] => ([], s)
  | k :: ks => (((s.call k).2.calls ks).1.cons (s.call k).1, ((s.call k).2.calls ks).2)

namespace TokenCursor

def call (n : Nat) (c : TokenCursor) : ParserCall → Descent
  | .expression => c.parseExpr n
  | .whole => c.parse n

/-- The results of calls one after the other, also after errors. -/
def calls (n : Nat) (c : TokenCursor) :
    List ParserCall → Except CursorCrash (List (Except ParseError Expr) × TokenCursor)
  | [] => .ok ([], c)
  | k :: ks => (c.call n k).bind fun (r, c) => (c.calls n ks).map fun (rs, c) => (r :: rs, c)

end TokenCursor

/-! ### Cursors in a list that comes to an end token

In front of the first end token the list has the tokens `body`; behind it anything may follow. -/

/-- The cursor at an index up to the first end token `stop`. -/
def cursorAt (body : List Token) (stop : Token) (rest : List Token) (i : Nat) : TokenCursor :=
  ⟨body ++ stop :: rest, i, (body.drop i).headD stop⟩

section

open ParserState TokenCursor

variable {body rest : List Token} {stop : Token}

theorem getElem?_append_stop (body : List Token) (stop : Token) (rest : List Token) {i : Nat}
    (hi : i ≤ body.length) : (body ++ stop :: rest)[i]? = some ((body.drop i).headD stop) := by
  obtain hlt | rfl := Nat.lt_or_eq_of_le hi
  · rw [List.getElem?_append_left hlt, List.drop_eq_getElem_cons hlt, List.headD_cons,
      List.getElem?_eq_getElem hlt]
  · rw [List.getElem?_append_right le_rfl, List.drop_length]
    simp

theorem moveTo_cursorAt {i : Nat} (hi : i ≤ body.length) :
    moveTo (body ++ stop :: rest) i = .ok (cursorAt body stop rest i) := by
  rw [moveTo, getElem?_append_stop body stop rest hi]
  rfl

theorem token_cursorAt {i : Nat} {t : Token} {ts : List Token} (hi : body.drop i = t :: ts) :
    (cursorAt body stop rest i).token = t := by
  simp [cursorAt, hi]

theorem token_cursorAt_end {i : Nat} (hi : body.drop i = []) : (cursorAt body stop rest i).token = stop := by
  simp [cursorAt, hi]

theorem lt_of_drop_eq_cons {i : Nat} {t : Token} {ts : List Token} (hi : body.drop i = t :: ts) :
    i < body.length ∧ body.drop (i + 1) = ts ∧ t ∈ body := by
  refine ⟨?_, ?_, List.mem_of_mem_drop (hi ▸ List.mem_cons_self)⟩
  · have hlen := congrArg List.length hi
    rw [List.length_drop, List.length_cons] at hlen
    omega
  · rw [← List.drop_drop, hi]
    rfl

/-- In front of the end token the next token is at the next index. -/
theorem next_cursorAt (hbody : ∀ t ∈ body, t.kind ≠ .eof) {i : Nat} {t : Token} {ts : List Token}
    (hi : body.drop i = t :: ts) :
    (cursorAt body stop rest i).next = .ok (cursorAt body stop rest (i + 1)) := by
  obtain ⟨hlt, -, ht⟩ := lt_of_drop_eq_cons hi
  rw [next, token_cursorAt hi, if_neg (hbody t ht)]
  exact moveTo_cursorAt hlt

/-! ### The descent is a run of the parser -/

/-- Goes on with what a routine gives: from the state that its tree leads to, while an error
ends the parsing. -/
def resume (stop : Token) (goesOn : Expr → ParserState) (r : Except ParseError Expr) (ts : List Token) :
    Parsed :=
  match r with
  | .ok x => (goesOn x).run stop ts
  | .error e => (.error e, ts)

/-- Parsing on from the state `s` at index `i` comes to what a routine gives, at index `j`. -/
def Runs (body : List Token) (stop : Token) (s : ParserState) (i : Nat) (goesOn : Expr → ParserState)
    (r : Except ParseError Expr) (j : Nat) : Prop :=
  s.run stop (body.drop i) = resume stop goesOn r (body.drop j)

/-- A routine at index `i` gives a result and stops at an index further on or at the same. -/
def Stops (body : List Token) (stop : Token) (rest : List Token) (i : Nat) (d : Descent)
    (P : Except ParseError Expr → Nat → Prop) : Prop :=
  ∃ r j, d = .ok (r, cursorAt body stop rest j) ∧ i ≤ j ∧ j ≤ body.length ∧ P r j

/-- What `n` steps suffice for, in the routine for operands that bind tighter than `level`: what is
left behind it does not. -/
def BinaryDescends (body : List Token) (stop : Token) (rest : List Token) (n : Nat) : Prop :=
  ∀ level i, i ≤ body.length → 4 * (body.length - i) + 4 ≤ n →
    Stops body stop rest i (binaryExpr n level (cursorAt body stop rest i)) fun r j =>
      (∀ frames, topPrecedence frames ≤ level →
        Runs body stop (.operand frames []) i (.operator frames) r j) ∧
      (∀ x, r = .ok x → nextPrecedence (body.drop j) ≤ level)

def OperatorsDescend (body : List Token) (stop : Token) (rest : List Token) (n : Nat) : Prop :=
  ∀ level x i, i ≤ body.length → 4 * (body.length - i) + 3 ≤ n →
    Stops body stop rest i (operators n level x (cursorAt body stop rest i)) fun r j =>
      (∀ frames, topPrecedence frames ≤ level →
        Runs body stop (.operator frames x) i (.operator frames) r j) ∧
      (∀ x, r = .ok x → nextPrecedence (body.drop j) ≤ level)

def UnaryDescends (body : List Token) (stop : Token) (rest : List Token) (n : Nat) : Prop :=
  ∀ i, i ≤ body.length → 4 * (body.length - i) + 2 ≤ n →
    Stops body stop rest i (unaryExpr n (cursorAt body stop rest i)) fun r j =>
      ∀ frames ops, Runs body stop (.operand frames ops) i (fun x => .operator frames (applyPrefix ops x)) r j

def OperandDescends (body : List Token) (stop : Token) (rest : List Token) (n : Nat) : Prop :=
  ∀ i, i ≤ body.length → (cursorAt body stop rest i).token.kind ∉ prefixOperators →
    4 * (body.length - i) + 1 ≤ n →
    Stops body stop rest i (operand n (cursorAt body stop rest i)) fun r j =>
      ∀ frames ops, Runs body stop (.operand frames ops) i (fun x => .operator frames (applyPrefix ops x)) r j

theorem binary_descends {n : Nat} (hunary : UnaryDescends body stop rest n)
    (hoperators : OperatorsDescend body stop rest n) : BinaryDescends body stop rest (n + 1) := by
  intro level i hi hn
  obtain ⟨r, j, hd, hij, hj, hruns⟩ := hunary i hi (by omega)
  rw [binaryExpr, hd]
  cases r with
  | error e => exact ⟨.error e, j, rfl, hij, hj, fun frames _ => hruns frames [], by simp⟩
  | ok x =>
    obtain ⟨r, k, hd, hjk, hk, hnext, hlevel⟩ := hoperators level x j hj (by omega)
    refine ⟨r, k, hd, hij.trans hjk, hk, fun frames hframes => ?_, hlevel⟩
    exact (hruns frames []).trans (hnext frames hframes)

theorem nextPrecedence_drop {i : Nat} {t : Token} {ts : List Token} (hi : body.drop i = t :: ts) :
    nextPrecedence (body.drop i) = t.kind.precedence := by
  rw [hi]
  rfl

theorem operators_descend (hbody : ∀ t ∈ body, t.kind ≠ .eof) (hstop : stop.kind = .eof) {n : Nat}
    (hbinary : BinaryDescends body stop rest n) (hoperators : OperatorsDescend body stop rest n) :
    OperatorsDescend body stop rest (n + 1) := by
  intro level x i hi hn
  rw [operators]
  cases hdrop : body.drop i with
  | nil =>
    have hend : (cursorAt body stop rest i).token.kind.precedence ≤ level := by
      simp [token_cursorAt_end hdrop, hstop, TokenKind.precedence]
    rw [if_pos hend]
    exact ⟨.ok x, i, rfl, le_rfl, hi, fun _ _ => rfl, by simp [hdrop, nextPrecedence]⟩
  | cons t ts =>
    obtain ⟨hlt, -, -⟩ := lt_of_drop_eq_cons hdrop
    rw [next_cursorAt hbody hdrop, token_cursorAt hdrop]
    by_cases hlevel : t.kind.precedence ≤ level
    · rw [if_pos hlevel]
      refine ⟨.ok x, i, rfl, le_rfl, hi, fun _ _ => rfl, fun _ _ => ?_⟩
      rwa [nextPrecedence_drop hdrop]
    · rw [if_neg hlevel]
      obtain ⟨r, j, hd, hij, hj, hruns, hright⟩ :=
        hbinary t.kind.precedence (i + 1) hlt (by omega)
      have hfirst : ∀ frames, topPrecedence frames ≤ level →
          Runs body stop (.operator frames x) i (.operator (.binary t.pos t.kind x :: frames)) r j := by
        intro frames hframes
        have hstep := run_binaryOperator stop (by omega : 0 < t.kind.precedence)
          (by omega : topPrecedence frames < t.kind.precedence) x ts
        rw [Runs, hdrop, hstep, ← (lt_of_drop_eq_cons hdrop).2.1]
        exact hruns _ le_rfl
      show Stops body stop rest i (thenTree (binaryExpr n t.kind.precedence _) _) _
      rw [hd]
      cases r with
      | error e => exact ⟨.error e, j, rfl, by omega, hj, hfirst, by simp⟩
      | ok y =>
        obtain ⟨r, k, hd, hjk, hk, hnext, hlevel'⟩ :=
          hoperators level (.binary t.pos t.kind x y) j hj (by omega)
        refine ⟨r, k, hd, by omega, hk, fun frames hframes => ?_, hlevel'⟩
        rw [Runs, hfirst frames hframes, resume, run_binary_frame stop (hright y rfl)]
        exact hnext frames hframes

theorem unary_descends (hbody : ∀ t ∈ body, t.kind ≠ .eof) (hstop : stop.kind = .eof) {n : Nat}
    (hunary : UnaryDescends body stop rest n) (hoperand : OperandDescends body stop rest n) :
    UnaryDescends body stop rest (n + 1) := by
  intro i hi hn
  rw [unaryExpr]
  by_cases hprefix : (cursorAt body stop rest i).token.kind ∈ prefixOperators
  · rw [if_pos hprefix]
    cases hdrop : body.drop i with
    | nil => simp [token_cursorAt_end hdrop, hstop, prefixOperators] at hprefix
    | cons t ts =>
      obtain ⟨hlt, hts, -⟩ := lt_of_drop_eq_cons hdrop
      rw [token_cursorAt hdrop] at hprefix
      rw [next_cursorAt hbody hdrop, token_cursorAt hdrop]
      obtain ⟨r, j, hd, hij, hj, hruns⟩ := hunary (i + 1) hlt (by omega)
      have hfirst : ∀ frames ops, Runs body stop (.operand frames ops) i
          (fun x => .operator frames (applyPrefix (⟨t.pos, t.kind⟩ :: ops) x)) r j := by
        intro frames ops
        rw [Runs, hdrop, run_prefixOperator stop hprefix, ← hts]
        exact hruns frames (⟨t.pos, t.kind⟩ :: ops)
      show Stops body stop rest i (thenTree (unaryExpr n _) _) _
      rw [hd]
      cases r with
      | error e => exact ⟨.error e, j, rfl, by omega, hj, hfirst⟩
      | ok x => exact ⟨.ok (.unary t.pos t.kind x), j, rfl, by omega, hj, hfirst⟩
  · rw [if_neg hprefix]
    exact hoperand i hi hprefix (by omega)

/-- A closing parenthesis is read, and anything else is the error. -/
theorem got_rightParen (rest : List Token) (hbody : ∀ t ∈ body, t.kind ≠ .eof)
    (hstop : stop.kind = .eof) {j : Nat}
    (hj : j ≤ body.length) (hlevel : nextPrecedence (body.drop j) ≤ 0) (x : Expr) :
    Stops body stop rest j (((cursorAt body stop rest j).got .rightParen).map fun
        | (true, c) => (.ok x, c)
        | (false, c) => (.error (.ofToken .expectedRightParen c.token), c)) fun r k =>
      ∀ frames ops, Runs body stop (.operator (.paren ops :: frames) x) j
        (fun x => .operator frames (applyPrefix ops x)) r k := by
  rw [got]
  by_cases hkind : (cursorAt body stop rest j).token.kind = .rightParen
  · rw [if_pos hkind]
    cases hdrop : body.drop j with
    | nil => simp [token_cursorAt_end hdrop, hstop] at hkind
    | cons t ts =>
      obtain ⟨hlt, hts, -⟩ := lt_of_drop_eq_cons hdrop
      rw [token_cursorAt hdrop] at hkind
      rw [next_cursorAt hbody hdrop]
      refine ⟨.ok x, j + 1, rfl, by omega, hlt, fun frames ops => ?_⟩
      rw [Runs, hdrop, run_rightParen stop hkind, ← hts]
      rfl
  · rw [if_neg hkind]
    refine ⟨.error (.ofToken .expectedRightParen _), j, rfl, le_rfl, hj, fun frames ops => ?_⟩
    have hstep : ∀ t ∈ (body.drop j).head?, (operator (.paren ops :: frames) x).step t = none := by
      intro t ht
      obtain ⟨ts, hdrop⟩ := List.head?_eq_some_iff.mp ht
      rw [token_cursorAt hdrop] at hkind
      rw [nextPrecedence_drop hdrop] at hlevel
      simp [step, closeAll, hkind, Nat.le_zero.mp hlevel]
    exact run_eq_halt stop [] (body.drop j) rfl hstep

theorem operand_descends (hbody : ∀ t ∈ body, t.kind ≠ .eof) (hstop : stop.kind = .eof) {n : Nat}
    (hbinary : BinaryDescends body stop rest n) : OperandDescends body stop rest (n + 1) := by
  intro i hi hprefix hn
  rw [TokenCursor.operand]
  cases hdrop : body.drop i with
  | nil =>
    rw [token_cursorAt_end hdrop, if_neg (by simp [hstop]), if_neg (by simp [hstop])]
    refine ⟨.error (.ofToken .unexpectedToken stop), i, rfl, le_rfl, hi, fun frames ops => ?_⟩
    rw [Runs, hdrop]
    exact run_nil stop _
  | cons t ts =>
    obtain ⟨hlt, hts, -⟩ := lt_of_drop_eq_cons hdrop
    rw [token_cursorAt hdrop] at hprefix
    rw [token_cursorAt hdrop, next_cursorAt hbody hdrop]
    by_cases hliteral : t.kind = .literal
    · rw [if_pos hliteral]
      refine ⟨.ok (.lit t.pos t.value), i + 1, rfl, by omega, hlt, fun frames ops => ?_⟩
      rw [Runs, hdrop, run_literal stop hliteral, ← hts]
      rfl
    · rw [if_neg hliteral]
      by_cases hparen : t.kind = .leftParen
      · rw [if_pos hparen]
        obtain ⟨r, j, hd, hij, hj, hruns, hlevel⟩ := hbinary 0 (i + 1) hlt (by omega)
        have hfirst : ∀ frames ops, Runs body stop (.operand frames ops) i
            (.operator (.paren ops :: frames)) r j := by
          intro frames ops
          rw [Runs, hdrop, run_leftParen stop hparen, ← hts]
          exact hruns (.paren ops :: frames) le_rfl
        show Stops body stop rest i (thenTree (binaryExpr n 0 _) _) _
        rw [hd]
        cases r with
        | error e => exact ⟨.error e, j, rfl, by omega, hj, hfirst⟩
        | ok x =>
          obtain ⟨r, k, hd, hjk, hk, hclose⟩ :=
            got_rightParen rest hbody hstop hj (hlevel x rfl) x
          refine ⟨r, k, hd, by omega, hk, fun frames ops => ?_⟩
          exact (hfirst frames ops).trans (hclose frames ops)
      · rw [if_neg hparen]
        refine ⟨.error (.ofToken .unexpectedToken t), i, rfl, le_rfl, hi, fun frames ops => ?_⟩
        have hstep : (ParserState.operand frames ops).step t = none := by
          simp only [prefixOperators, List.mem_cons, List.not_mem_nil, or_false, not_or] at hprefix
          simp only [step]
          split <;> simp_all
        rw [Runs, hdrop, run_cons, hstep]
        rfl

/-- **The descent never leaves the list and always ends.** Each routine needs at most four steps
for each token that is left. -/
theorem descends (hbody : ∀ t ∈ body, t.kind ≠ .eof) (hstop : stop.kind = .eof) : ∀ n,
    BinaryDescends body stop rest n ∧ OperatorsDescend body stop rest n ∧
      UnaryDescends body stop rest n ∧ OperandDescends body stop rest n
  | 0 => ⟨fun _ _ _ _ => by omega, fun _ _ _ _ _ => by omega, fun _ _ _ => by omega,
      fun _ _ _ _ => by omega⟩
  | n + 1 => by
    obtain ⟨hbinary, hoperators, hunary, hoperand⟩ := descends hbody hstop n
    exact ⟨binary_descends hunary hoperators, operators_descend hbody hstop hbinary hoperators,
      unary_descends hbody hstop hunary hoperand, operand_descends hbody hstop hbinary⟩

/-! ### Calls at a cursor are calls at a stream -/

theorem run_operator_nil (stop : Token) (x : Expr) {ts : List Token} (h : nextPrecedence ts ≤ 0) :
    (operator [] x).run stop ts = (.ok x, ts) := by
  have hstep : ∀ t ∈ ts.head?, (operator [] x).step t = none := by
    intro t ht
    obtain ⟨ts, rfl⟩ := List.head?_eq_some_iff.mp ht
    have hprec : t.kind.precedence ≤ 0 := h
    simp [step, closeAll, Nat.le_zero.mp hprec]
  exact run_eq_halt stop [] ts rfl hstep

theorem parseExpr_cursorAt (rest : List Token) (hbody : ∀ t ∈ body, t.kind ≠ .eof)
    (hstop : stop.kind = .eof) {n i : Nat}
    (hi : i ≤ body.length) (hn : 4 * (body.length + 1) ≤ n) :
    Stops body stop rest i ((cursorAt body stop rest i).parseExpr n) fun r j =>
      TokenStream.parseExpr ⟨body.drop i, stop⟩ = (r, ⟨body.drop j, stop⟩) := by
  obtain ⟨r, j, hd, hij, hj, hruns, hlevel⟩ := (descends hbody hstop n).1 0 i hi (by omega)
  refine ⟨r, j, hd, hij, hj, ?_⟩
  have hrun : operandAt stop [] [] (body.drop i) = (r, body.drop j) := by
    refine (hruns [] le_rfl).trans ?_
    cases r with
    | error e => rfl
    | ok x => exact run_operator_nil stop x (hlevel x rfl)
  rw [TokenStream.parseExpr, hrun]

theorem skipNewlines_cursorAt (rest : List Token) (hbody : ∀ t ∈ body, t.kind ≠ .eof)
    (hstop : stop.kind = .eof) :
    ∀ {n i : Nat}, i ≤ body.length → body.length - i < n →
      ∃ j, (cursorAt body stop rest i).skipNewlines n = .ok (cursorAt body stop rest j) ∧ i ≤ j ∧
        j ≤ body.length ∧ body.drop j = (body.drop i).dropWhile (·.kind = .newline)
  | n + 1, i, hi, hn => by
    rw [skipNewlines, got]
    cases hdrop : body.drop i with
    | nil =>
      rw [token_cursorAt_end hdrop, if_neg (by simp [hstop])]
      exact ⟨i, rfl, le_rfl, hi, by simp [hdrop]⟩
    | cons t ts =>
      obtain ⟨hlt, hts, -⟩ := lt_of_drop_eq_cons hdrop
      rw [token_cursorAt hdrop]
      by_cases hkind : t.kind = .newline
      · rw [if_pos hkind, next_cursorAt hbody hdrop]
        obtain ⟨j, hd, hij, hj, hnewlines⟩ := skipNewlines_cursorAt rest hbody hstop hlt (by omega : _ < n)
        refine ⟨j, hd, by omega, hj, ?_⟩
        rw [hnewlines, hts, List.dropWhile_cons_of_pos (by simpa using hkind)]
      · rw [if_neg hkind]
        refine ⟨i, rfl, le_rfl, hi, ?_⟩
        rw [hdrop, List.dropWhile_cons_of_neg (by simpa using hkind)]

theorem parse_cursorAt (rest : List Token) (hbody : ∀ t ∈ body, t.kind ≠ .eof)
    (hstop : stop.kind = .eof) {n i : Nat}
    (hi : i ≤ body.length) (hn : 4 * (body.length + 1) ≤ n) :
    Stops body stop rest i ((cursorAt body stop rest i).parse n) fun r j =>
      TokenStream.parse ⟨body.drop i, stop⟩ = (r, ⟨body.drop j, stop⟩) := by
  obtain ⟨j, hfront, hij, hj, hnewlines⟩ :=
    skipNewlines_cursorAt rest hbody hstop (n := n) hi (by omega)
  obtain ⟨r, k, hd, hjk, hk, hexpr⟩ := parseExpr_cursorAt rest hbody hstop hj hn
  rw [hnewlines] at hexpr
  rw [TokenCursor.parse, hfront]
  show Stops body stop rest i (thenTree (TokenCursor.parseExpr n _) _) _
  rw [hd]
  cases r with
  | error e =>
    refine ⟨.error e, k, rfl, by omega, hk, ?_⟩
    rw [TokenStream.parse, TokenStream.skipNewlines, hexpr]
  | ok x =>
    obtain ⟨l, hback, hkl, hl, hnewlines'⟩ :=
      skipNewlines_cursorAt rest hbody hstop (n := n) hk (by omega)
    show Stops body stop rest i (((cursorAt body stop rest k).skipNewlines n).map _) _
    rw [hback]
    simp only [TokenStream.parse, TokenStream.skipNewlines, hexpr, ← hnewlines', Except.map]
    cases hdrop : body.drop l with
    | nil =>
      rw [token_cursorAt_end hdrop, if_pos hstop]
      exact ⟨.ok x, l, rfl, by omega, hl, by simp [hdrop]⟩
    | cons t ts =>
      obtain ⟨-, -, ht⟩ := lt_of_drop_eq_cons hdrop
      rw [token_cursorAt hdrop, if_neg (hbody t ht)]
      exact ⟨.error (.ofToken .unexpectedToken t), l, rfl, by omega, hl, by simp [hdrop]⟩

theorem call_cursorAt (rest : List Token) (hbody : ∀ t ∈ body, t.kind ≠ .eof)
    (hstop : stop.kind = .eof) {n i : Nat}
    (hi : i ≤ body.length) (hn : 4 * (body.length + 1) ≤ n) (k : ParserCall) :
    Stops body stop rest i ((cursorAt body stop rest i).call n k) fun r j =>
      TokenStream.call ⟨body.drop i, stop⟩ k = (r, ⟨body.drop j, stop⟩) := by
  cases k with
  | expression => exact parseExpr_cursorAt rest hbody hstop hi hn
  | whole => exact parse_cursorAt rest hbody hstop hi hn

/-- **Calls at a cursor are calls at a stream**, with the same results, also after errors. -/
theorem calls_cursorAt (rest : List Token) (hbody : ∀ t ∈ body, t.kind ≠ .eof)
    (hstop : stop.kind = .eof) {n : Nat}
    (hn : 4 * (body.length + 1) ≤ n) : ∀ (ks : List ParserCall) {i : Nat}, i ≤ body.length →
      ∃ rs j, (cursorAt body stop rest i).calls n ks = .ok (rs, cursorAt body stop rest j) ∧ i ≤ j ∧
        j ≤ body.length ∧ TokenStream.calls ⟨body.drop i, stop⟩ ks = (rs, ⟨body.drop j, stop⟩)
  | [], i, hi => ⟨[], i, rfl, le_rfl, hi, rfl⟩
  | k :: ks, i, hi => by
    obtain ⟨r, j, hcall, hij, hj, hstream⟩ := call_cursorAt rest hbody hstop hi hn k
    obtain ⟨rs, l, hcalls, hjl, hl, hstreams⟩ := calls_cursorAt rest hbody hstop hn ks hj
    refine ⟨r :: rs, l, ?_, by omega, hl, ?_⟩
    · rw [TokenCursor.calls, hcall]
      show (((cursorAt body stop rest j).calls n ks).map _) = _
      rw [hcalls]
      rfl
    · rw [TokenStream.calls, hstream, hstreams]

end

/-! ### What a call does to a stream -/

namespace TokenStream

/-- A failed run stops on the token that its error carries. -/
theorem token_of_run_eq_error {stop : Token} {s : ParserState} {ts rest : List Token} {e : ParseError}
    (h : s.run stop ts = (.error e, rest)) : e.token = rest.headD stop := by
  obtain ⟨read, left, s', rfl, hafter, hleft⟩ := s.exists_halt ts
  rw [ParserState.run_eq_halt stop read left hafter hleft, Prod.mk.injEq] at h
  obtain ⟨hhalt, rfl⟩ := h
  obtain ⟨rfl, -⟩ | ⟨rfl, -⟩ := ParserState.halt_eq_error hhalt <;> rfl

theorem token_of_parseExpr_eq_error {s s' : TokenStream} {e : ParseError}
    (h : s.parseExpr = (.error e, s')) : e.token = s'.current := by
  obtain ⟨hresult, rfl⟩ := Prod.mk.injEq .. ▸ h
  exact token_of_run_eq_error (s := .start) (Prod.ext hresult rfl)

/-- **A failed call leaves the stream on the token that its error carries.** -/
theorem token_of_call_eq_error {s s' : TokenStream} {k : ParserCall} {e : ParseError}
    (h : s.call k = (.error e, s')) : e.token = s'.current := by
  cases k with
  | expression => exact token_of_parseExpr_eq_error h
  | whole =>
    rw [call, parse] at h
    rcases hexpr : s.skipNewlines.parseExpr with ⟨e' | x, s₁⟩
    · rw [hexpr] at h
      cases h
      exact token_of_parseExpr_eq_error hexpr
    · simp only [hexpr] at h
      cases hahead : s₁.skipNewlines.ahead with
      | nil => simp [hahead] at h
      | cons t ts =>
        simp only [hahead, Prod.mk.injEq, Except.error.injEq] at h
        obtain ⟨rfl, rfl⟩ := h
        simp [current, hahead, ParseError.ofToken]

/-- At the end token every call fails there. -/
theorem call_at_stop (stop : Token) (k : ParserCall) :
    call ⟨[], stop⟩ k = (.error (.ofToken .unexpectedToken stop), ⟨[], stop⟩) := by
  cases k <;> simp [call, parse, parseExpr, skipNewlines, operandAt]

/-- A list that is closed comes to an end token: the first one, or the one that was put behind it. -/
theorem closedList_eq (ts : List Token) : (∀ t ∈ (ofTokens ts).ahead, t.kind ≠ .eof) ∧
    (ofTokens ts).stop.kind = .eof ∧
    ∃ rest, closedList ts = (ofTokens ts).ahead ++ (ofTokens ts).stop :: rest := by
  have hahead : ∀ t ∈ ts.takeWhile (·.kind ≠ .eof), t.kind ≠ .eof := fun t ht => by
    simpa using List.mem_takeWhile_imp ht
  have happ : ts.takeWhile (·.kind ≠ .eof) ++ ts.dropWhile (·.kind ≠ .eof) = ts :=
    List.takeWhile_append_dropWhile
  refine ⟨hahead, ?_⟩
  cases hdrop : ts.dropWhile (·.kind ≠ .eof) with
  | nil =>
    rw [hdrop, List.append_nil] at happ
    have hlast : ts.getLast?.any (·.kind = .eof) = false := by
      rw [Option.any_eq_false]
      intro t ht
      have hmem := List.mem_of_getLast? ht
      rw [← happ] at hmem
      simpa using hahead t hmem
    refine ⟨?_, [], ?_⟩
    · simp only [ofTokens, hdrop, impliedStop]
    · simp only [closedList, hlast, ofTokens, hdrop, happ, Bool.false_eq_true, if_false]
  | cons t rest =>
    rw [hdrop] at happ
    have ht : t.kind = .eof := by
      have := List.head?_dropWhile_not (fun t : Token => decide (t.kind ≠ .eof)) ts
      rw [hdrop] at this
      simpa using this
    simp only [ofTokens, hdrop, closedList]
    refine ⟨ht, ?_⟩
    split
    · exact ⟨rest, happ.symm⟩
    · refine ⟨rest ++ [impliedStop ts], ?_⟩
      rw [← List.cons_append, ← List.append_assoc, happ]

end TokenStream

/-- The tokens up to the first end token, with it. -/
def upToEnd : List Token → List Token
  | [] => []
  | t :: ts => if t.kind = .eof then [t] else t :: upToEnd ts

theorem upToEnd_append_stop {stop : Token} (hstop : stop.kind = .eof) (rest : List Token) :
    ∀ {body : List Token}, (∀ t ∈ body, t.kind ≠ .eof) → upToEnd (body ++ stop :: rest) = body ++ [stop]
  | [], _ => if_pos hstop
  | t :: body, h => by
    obtain ⟨ht, hbody⟩ := List.forall_mem_cons.mp h
    rw [List.cons_append, upToEnd, if_neg ht, upToEnd_append_stop hstop rest hbody, List.cons_append]

/-- Only the tokens up to the first end token make the stream. -/
theorem ofTokens_eq_of_upToEnd_eq {ts us : List Token}
    (h : upToEnd (closedList us) = upToEnd (closedList ts)) :
    TokenStream.ofTokens us = TokenStream.ofTokens ts := by
  obtain ⟨hbody, hstop, rest, hclosed⟩ := TokenStream.closedList_eq ts
  obtain ⟨hbody', hstop', rest', hclosed'⟩ := TokenStream.closedList_eq us
  rw [hclosed, hclosed', upToEnd_append_stop hstop rest hbody, upToEnd_append_stop hstop' rest' hbody'] at h
  obtain ⟨hahead, hlast⟩ := List.append_inj' h rfl
  generalize TokenStream.ofTokens ts = s at *
  generalize TokenStream.ofTokens us = s' at *
  cases s
  cases s'
  simp_all

/-! ### The cursor is safe -/

/-- The cursor is within its list, on the token that it holds, and not behind an end token. -/
structure TokenCursor.Valid (c : TokenCursor) : Prop where
  index_lt : c.index < c.tokens.length
  token : c.tokens[c.index]? = some c.token
  front : ∀ t ∈ c.tokens.take c.index, t.kind ≠ .eof

theorem valid_cursorAt {body rest : List Token} {stop : Token} (hbody : ∀ t ∈ body, t.kind ≠ .eof)
    {i : Nat} (hi : i ≤ body.length) : (cursorAt body stop rest i).Valid where
  index_lt := by
    simp only [cursorAt, List.length_append, List.length_cons]
    omega
  token := getElem?_append_stop body stop rest hi
  front := by
    intro t ht
    rw [cursorAt, List.take_append_of_le_length hi] at ht
    exact hbody t (List.mem_of_mem_take ht)

/-- Only at the first end token the current token is one. -/
theorem eq_length_of_token_eof {body rest : List Token} {stop : Token} (hbody : ∀ t ∈ body, t.kind ≠ .eof)
    {i : Nat} (hi : i ≤ body.length) (h : (cursorAt body stop rest i).token.kind = .eof) :
    i = body.length := by
  cases hdrop : body.drop i with
  | nil => exact le_antisymm hi (List.drop_eq_nil_iff.mp hdrop)
  | cons t ts =>
    rw [token_cursorAt hdrop] at h
    exact absurd h (hbody t (lt_of_drop_eq_cons hdrop).2.2)

theorem TokenStream.calls_append (k : ParserCall) : ∀ (before : List ParserCall) (s : TokenStream),
    (s.calls (before ++ [k])).1 = (s.calls before).1 ++ [((s.calls before).2.call k).1]
  | [], _ => rfl
  | k' :: before, s => congrArg (List.cons _) (calls_append k before (s.call k').2)

/-- Where calls lead in a list, by the stream that it makes. -/
theorem exists_calls (ts : List Token) (before : List ParserCall) (k : ParserCall) {fuel : Nat}
    (hfuel : 4 * (closedList ts).length ≤ fuel) {body : List Token} {stop : Token}
    (hts : TokenStream.ofTokens ts = ⟨body, stop⟩) :
    ∃ rest rs i r j, closedList ts = body ++ stop :: rest ∧
      TokenCursor.ofTokens ts = .ok (cursorAt body stop rest 0) ∧
      (cursorAt body stop rest 0).calls fuel before = .ok (rs, cursorAt body stop rest i) ∧
      (cursorAt body stop rest i).call fuel k = .ok (r, cursorAt body stop rest j) ∧
      (i ≤ j ∧ j ≤ body.length) ∧ TokenStream.calls ⟨body, stop⟩ before = (rs, ⟨body.drop i, stop⟩) ∧
      TokenStream.call ⟨body.drop i, stop⟩ k = (r, ⟨body.drop j, stop⟩) := by
  obtain ⟨hbody, hstop, rest, hclosed⟩ := TokenStream.closedList_eq ts
  rw [hts] at hbody hstop hclosed
  have hlen : 4 * (body.length + 1) ≤ fuel := by
    simp only [hclosed, List.length_append, List.length_cons] at hfuel
    omega
  obtain ⟨rs, i, hcalls, -, hi, hstream⟩ :=
    calls_cursorAt rest hbody hstop hlen before (Nat.zero_le _)
  obtain ⟨r, j, hcall, hij, hj, hlast⟩ := call_cursorAt rest hbody hstop hi hlen k
  refine ⟨rest, rs, i, r, j, hclosed, ?_, hcalls, hcall, ⟨hij, hj⟩, hstream, hlast⟩
  rw [TokenCursor.ofTokens, hclosed]
  exact moveTo_cursorAt (Nat.zero_le _)

theorem eq_of_drop_eq_drop {body : List Token} {i j : Nat} (hi : i ≤ body.length) (hj : j ≤ body.length)
    (h : body.drop i = body.drop j) : i = j := by
  have hlen := congrArg List.length h
  simp only [List.length_drop] at hlen
  omega

/-- **The cursor is safe under any use.** Given four steps for each token, every call on any
token list comes to an end without leaving the list, whatever calls went before and however they
ended. The results are those of the parser. After each call the cursor is valid and not in
front of where it was; after an error it is on the token that the error carries; and on an end
token every call fails with that token and stays. Another list that has the same tokens up to
its first end token gives the same results at the same indices. -/
theorem parser_cursor_is_safe (ts : List Token) (before : List ParserCall) (k : ParserCall) {fuel : Nat}
    (hfuel : 4 * (closedList ts).length ≤ fuel) :
    ∃ start rs c r c', TokenCursor.ofTokens ts = .ok start ∧ start.index = 0 ∧ start.Valid ∧
      start.calls fuel before = .ok (rs, c) ∧ c.call fuel k = .ok (r, c') ∧
      ((TokenStream.ofTokens ts).calls (before ++ [k])).1 = rs ++ [r] ∧
      (c'.tokens = closedList ts ∧ c'.Valid ∧ c.index ≤ c'.index) ∧
      (∀ e, r = .error e → e.token = c'.token) ∧
      (c.token.kind = .eof → r = .error (.ofToken .unexpectedToken c.token) ∧ c' = c) ∧
      ∀ us, upToEnd (closedList us) = upToEnd (closedList ts) → ∀ fuel', 4 * (closedList us).length ≤ fuel' →
        ∃ start' d d', TokenCursor.ofTokens us = .ok start' ∧ start'.calls fuel' before = .ok (rs, d) ∧
          d.call fuel' k = .ok (r, d') ∧ d'.index = c'.index ∧ d'.token = c'.token := by
  obtain ⟨hbody, hstop, -⟩ := TokenStream.closedList_eq ts
  rcases hts : TokenStream.ofTokens ts with ⟨body, stop⟩
  rw [hts] at hbody hstop
  obtain ⟨rest, rs, i, r, j, hclosed, hstart, hcalls, hcall, ⟨hij, hj⟩, hstream, hlast⟩ :=
    exists_calls ts before k hfuel hts
  refine ⟨_, rs, _, r, _, hstart, rfl, valid_cursorAt hbody (Nat.zero_le _), hcalls, hcall, ?_,
    ⟨hclosed.symm, valid_cursorAt hbody hj, hij⟩, ?_, fun hend => ?_, fun us hus fuel' hfuel' => ?_⟩
  · rw [TokenStream.calls_append, hstream, hlast]
  · rintro e rfl
    exact TokenStream.token_of_call_eq_error hlast
  · obtain rfl := eq_length_of_token_eof hbody (hij.trans hj) hend
    obtain rfl := le_antisymm hij hj
    rw [List.drop_length, TokenStream.call_at_stop, Prod.mk.injEq] at hlast
    refine ⟨?_, rfl⟩
    rw [token_cursorAt_end (List.drop_length ..)]
    exact hlast.1.symm
  · obtain ⟨rest', rs', i', r', j', -, hstart', hcalls', hcall', ⟨hij', hj'⟩, hstream', hlast'⟩ :=
      exists_calls us before k hfuel' ((ofTokens_eq_of_upToEnd_eq hus).trans hts)
    obtain ⟨rfl, hi⟩ := Prod.mk.injEq .. ▸ hstream.symm.trans hstream'
    obtain rfl := eq_of_drop_eq_drop (hij.trans hj) (hij'.trans hj') (TokenStream.mk.inj hi).1
    obtain ⟨rfl, hd⟩ := Prod.mk.injEq .. ▸ hlast.symm.trans hlast'
    obtain rfl := eq_of_drop_eq_drop hj hj' (TokenStream.mk.inj hd).1
    exact ⟨_, _, _, hstart', hcalls', hcall', rfl, rfl⟩

/-- An expression that lacks its closing parenthesis, an end token in the middle, and more
tokens behind it. -/
def middleEndTokens : List Token :=
  [{ kind := .newline, pos := ⟨"", 1, 1⟩ }, { kind := .leftParen, pos := ⟨"", 2, 1⟩ },
    { kind := .literal, pos := ⟨"", 2, 2⟩, value := .int 8 }, { kind := .eof, pos := ⟨"", 2, 3⟩ },
    { kind := .literal, pos := ⟨"", 2, 4⟩, value := .int 4 }]

/-- The first call fails at the newline, the second at the end token in the middle, where the
parenthesis is missing, and the third there again. -/
theorem middleEndTokens_cursor_is_safe : 4 * (closedList middleEndTokens).length ≤ 24 ∧
    ∃ start c c', TokenCursor.ofTokens middleEndTokens = .ok start ∧
      start.calls 24 [.expression, .whole] =
        .ok ([.error (.ofToken .unexpectedToken { kind := .newline, pos := ⟨"", 1, 1⟩ }),
          .error (.ofToken .expectedRightParen { kind := .eof, pos := ⟨"", 2, 3⟩ })], c) ∧
      c.call 24 .whole = .ok (.error (.ofToken .unexpectedToken { kind := .eof, pos := ⟨"", 2, 3⟩ }), c') ∧
      c'.Valid ∧ c'.token = { kind := .eof, pos := ⟨"", 2, 3⟩ } := by
  have hfuel : 4 * (closedList middleEndTokens).length ≤ 24 := by decide
  obtain ⟨start, rs, c, r, c', hstart, -, -, hcalls, hcall, hresults, ⟨-, hvalid, -⟩, htoken, -⟩ :=
    parser_cursor_is_safe middleEndTokens [.expression, .whole] .whole hfuel
  have hstream : ((TokenStream.ofTokens middleEndTokens).calls ([.expression, .whole] ++ [.whole])).1 =
      [.error (.ofToken .unexpectedToken { kind := .newline, pos := ⟨"", 1, 1⟩ }),
        .error (.ofToken .expectedRightParen { kind := .eof, pos := ⟨"", 2, 3⟩ })] ++
      [.error (.ofToken .unexpectedToken { kind := .eof, pos := ⟨"", 2, 3⟩ })] := rfl
  obtain ⟨rfl, hr⟩ := List.append_inj' (hresults.symm.trans hstream) rfl
  obtain rfl := List.singleton_inj.mp hr
  exact ⟨hfuel, start, c, c', hstart, hcalls, hcall, hvalid, (htoken _ rfl).symm⟩

end Pseudocode
