/-
# Syntax errors

A syntax error names the token at which no expression can go on, and whether a
closing parenthesis was all that could have stood there beside an operator.

Key definitions: `ParseFault`, `ParseError`, `ParseError.message`.
-/
import Pseudocode.Token

namespace Pseudocode

/-- What is wrong with a token. Codes beyond the two faults can be named but
never arise. -/
inductive ParseFault where
  /-- No expression goes on with this token. -/
  | unexpectedToken
  /-- A parenthesis is still open at this token. -/
  | expectedRightParen
  /-- The fault with code `2 + offset`. -/
  | unknown (offset : Nat)
deriving Repr, DecidableEq, Inhabited

namespace ParseFault

/-- The fault with a numeric code. -/
def ofCode : Nat → ParseFault
  | 0 => unexpectedToken
  | 1 => expectedRightParen
  | n + 2 => unknown n

/-- The name of the fault. -/
def name : ParseFault → String
  | unexpectedToken => "UnexpectedToken"
  | expectedRightParen => "ExpectedRightParen"
  | unknown n => "ParseErrorKind(" ++ toString (n + 2) ++ ")"

end ParseFault

/-- A syntax error at its token. -/
structure ParseError where
  fault : ParseFault
  pos : Pos
  token : Token
deriving Repr, Inhabited

namespace ParseError

/-- The error of a fault at a token. -/
def ofToken (fault : ParseFault) (t : Token) : ParseError := ⟨fault, t.pos, t⟩

/-- The message without the place. -/
def detail (e : ParseError) : String :=
  match e.fault with
  | .unexpectedToken => "unexpected token '" ++ e.token.describe ++ "'"
  | .expectedRightParen => "expected right parenthesis"
  | .unknown n => (ParseFault.unknown n).name

/-- The whole message. -/
def message (e : ParseError) : String := e.pos.describe ++ ": " ++ e.detail

end ParseError

end Pseudocode
