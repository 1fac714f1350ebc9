/-
# Parsing

The grammar has four levels of binary operators, all associating to the left:
equality, comparison, sums and products, from loose to tight. Prefix operators
bind tighter than any of them, and an operand is a literal or an expression in
parentheses.

The parser reads each token once. What it has read and not yet closed is a
stack of frames: a binary operator with its left operand, or an open
parenthesis with the prefix operators in front of it. It is either at an
operand, with the prefix operators just read, or after one. After an operand a
binary operator closes the frames that bind at least as tightly as it does, and
any other token closes all frames up to the innermost parenthesis.

An error is reported at the first token that no expression can have there, and
the stream is left on that token.

Key definitions: `Frame`, `operandAt`, `operatorAt`, `TokenStream.parseExpr`,
`TokenStream.parse`.
-/
import Pseudocode.Expr
import Pseudocode.Expr.ParseError
import Pseudocode.Token.Stream

namespace Pseudocode

/-- A prefix operator that waits for its operand. -/
structure PrefixOp where
  pos : Pos
  op : TokenKind
deriving Repr, Inhabited

/-- A part of an expression that is not closed yet. -/
inductive Frame where
  /-- A binary operator and its left operand. -/
  | binary (pos : Pos) (op : TokenKind) (x : Expr)
  /-- An open parenthesis and the prefix operators in front of it, innermost
  first. -/
  | paren (ops : List PrefixOp)
deriving Repr, Inhabited

/-- Applies prefix operators, innermost first. -/
def applyPrefix (ops : List PrefixOp) (x : Expr) : Expr :=
  ops.foldl (fun x o => .unary o.pos o.op x) x

/-- Closes the binary operators on top that bind at least as tightly as
`level`. -/
def closeTighter (level : Nat) : List Frame → Expr → List Frame × Expr
  | .binary p op x :: frames, y =>
    if level ≤ op.precedence then closeTighter level frames (.binary p op x y)
    else (.binary p op x :: frames, y)
  | frames, y => (frames, y)

/-- Closes all binary operators up to the innermost parenthesis: the expression
they make, and the parenthesis, if there is one, with what is below it. -/
def closeAll : List Frame → Expr → Expr × Option (List PrefixOp × List Frame)
  | [], y => (y, none)
  | .paren ops :: frames, y => (y, some (ops, frames))
  | .binary p op x :: frames, y => closeAll frames (.binary p op x y)

/-- The outcome of parsing, and the tokens left. -/
abbrev Parsed := Except ParseError Expr × List Token

mutual

/-- Parses where an operand has to start, after the prefix operators `ops`. -/
def operandAt (stop : Token) (frames : List Frame) (ops : List PrefixOp) : List Token → Parsed
  | [] => (.error (.ofToken .unexpectedToken stop), [])
  | t :: ts =>
    match t.kind with
    | .literal => operatorAt stop frames (applyPrefix ops (.lit t.pos t.value)) ts
    | .notOp | .andOp | .minus => operandAt stop frames (⟨t.pos, t.kind⟩ :: ops) ts
    | .leftParen => operandAt stop (.paren ops :: frames) [] ts
    | _ => (.error (.ofToken .unexpectedToken t), t :: ts)

/-- Parses after the operand `x`. -/
def operatorAt (stop : Token) (frames : List Frame) (x : Expr) : List Token → Parsed
  | [] =>
    match closeAll frames x with
    | (x, none) => (.ok x, [])
    | (_, some _) => (.error (.ofToken .expectedRightParen stop), [])
  | t :: ts =>
    if 0 < t.kind.precedence then
      let (frames, x) := closeTighter t.kind.precedence frames x
      operandAt stop (.binary t.pos t.kind x :: frames) [] ts
    else
      match closeAll frames x with
      | (x, none) => (.ok x, t :: ts)
      | (x, some (ops, frames)) =>
        if t.kind = .rightParen then operatorAt stop frames (applyPrefix ops x) ts
        else (.error (.ofToken .expectedRightParen t), t :: ts)

end

namespace TokenStream

/-- Parses one expression from where the stream stands, and leaves the stream on
the first token after it, or on the token that is in error. -/
def parseExpr (s : TokenStream) : Except ParseError Expr × TokenStream :=
  let (result, ahead) := operandAt s.stop [] [] s.ahead
  (result, { s with ahead })

/-- Parses one expression up to the end, with newlines allowed on either side. -/
def parse (s : TokenStream) : Except ParseError Expr × TokenStream :=
  match s.skipNewlines.parseExpr with
  | (.error e, s) => (.error e, s)
  | (.ok x, s) =>
    let s := s.skipNewlines
    match s.ahead with
    | [] => (.ok x, s)
    | t :: _ => (.error (.ofToken .unexpectedToken t), s)

end TokenStream

/-- Parses a whole token list. -/
def parseTokens (ts : List Token) : Except ParseError Expr :=
  (TokenStream.ofTokens ts).parse.1

end Pseudocode
