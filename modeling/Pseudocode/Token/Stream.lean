/-
# A stream of tokens

Parsing reads tokens up to the first end token and never past it. A stream is
the tokens ahead of that end together with the end token itself, so a list
that lacks one, or holds more after it, makes a stream as well.

Key definitions: `TokenStream`, `TokenStream.ofTokens`, `TokenStream.current`.
-/
import Pseudocode.Token

namespace Pseudocode

/-- The tokens ahead and the end token behind them. -/
structure TokenStream where
  /-- The tokens still to be read, none of them an end token. -/
  ahead : List Token
  /-- The end of the input. -/
  stop : Token
deriving Repr, Inhabited

namespace TokenStream

/-- The end token of a list that has none: it stands where the last token does,
or at the start of an empty list. -/
def impliedStop (ts : List Token) : Token :=
  { kind := .eof, pos := match ts.getLast? with
      | some t => t.pos
      | none => Pos.start "" }

/-- The stream of a token list. -/
def ofTokens (ts : List Token) : TokenStream :=
  { ahead := ts.takeWhile (·.kind ≠ .eof)
    stop := match ts.dropWhile (·.kind ≠ .eof) with
      | t :: _ => t
      | [] => impliedStop ts }

/-- The token the stream stands on. -/
def current (s : TokenStream) : Token := s.ahead.headD s.stop

/-- The stream after the newlines in front of it. -/
def skipNewlines (s : TokenStream) : TokenStream :=
  { s with ahead := s.ahead.dropWhile (·.kind = .newline) }

end TokenStream

end Pseudocode
