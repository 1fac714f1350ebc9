/-
# Lexical errors

What can be wrong with a lexeme, and how it is reported: the fault, the place,
and the character concerned. Where the input ends too early the character is
the one that is left open, a quote or an exclamation mark.

Key definitions: `ScanFault`, `ScanError`, `ScanError.message`.
-/
import Pseudocode.Position
import Pseudocode.Text.Quoted

namespace Pseudocode

/-- What is wrong with a lexeme. Codes beyond the four faults can be named but
never arise. -/
inductive ScanFault where
  /-- The input ends inside a lexeme. -/
  | unexpectedEnd
  /-- A character no lexeme has at that place. -/
  | unexpectedChar
  /-- A number with a point that is none, or is too large. -/
  | badFloat
  /-- A whole number that is too large. -/
  | badInt
  /-- The fault with code `4 + offset`. -/
  | unknown (offset : Nat)
deriving Repr, DecidableEq, Inhabited

namespace ScanFault

/-- The fault with a numeric code. -/
def ofCode : Nat → ScanFault
  | 0 => unexpectedEnd
  | 1 => unexpectedChar
  | 2 => badFloat
  | 3 => badInt
  | n + 4 => unknown n

/-- The name of the fault. -/
def name : ScanFault → String
  | unexpectedEnd => "UnexpectedEOF"
  | unexpectedChar => "UnexpectedChar"
  | badFloat => "FailedToParseFloat"
  | badInt => "FailedToParseInt"
  | unknown n => "ScanErrorKind(" ++ toString (n + 4) ++ ")"

end ScanFault

/-- A lexical error at its place. -/
structure ScanError where
  fault : ScanFault
  pos : Pos
  /-- The code point of the character concerned, zero if there is none. -/
  codePoint : Int := 0
deriving Repr, DecidableEq, Inhabited

namespace ScanError

/-- The message without the place. -/
def detail (e : ScanError) : String :=
  match e.fault with
  | .unexpectedEnd => "unexpected end of input"
  | .unexpectedChar => "unexpected character " ++ quoteCodePoint e.codePoint
  | .badFloat => "failed to parse float"
  | .badInt => "failed to parse int"
  | .unknown n => (ScanFault.unknown n).name

/-- The whole message. -/
def message (e : ScanError) : String := e.pos.describe ++ ": " ++ e.detail

end ScanError

end Pseudocode
