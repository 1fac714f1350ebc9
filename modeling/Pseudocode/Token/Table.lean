/-
# The token table

A token list is shown as a table with one line for each token: the place, the
kind, and what a literal or an identifier carries. The table is written line
by line to a sink that may refuse a line; writing stops there.

Key definitions: `Token.line`, `tokenTable`, `Sink`, `writeTo`, `writeLines`.
-/
import Pseudocode.Token

namespace Pseudocode

/-- A text with spaces after it up to `width` characters. -/
def padRight (width : Nat) (s : String) : String :=
  s ++ String.ofList (List.replicate (width - s.length) ' ')

/-- The line of a token, with its newline. -/
def Token.line (t : Token) : String :=
  let place := padRight 8 t.pos.text
  match t.kind with
  | .literal => place ++ " " ++ padRight 10 t.kind.spelling ++ " " ++ t.value.debug ++ "\n"
  | .identifier => place ++ " " ++ padRight 10 t.kind.spelling ++ " " ++ t.name ++ "\n"
  | k => place ++ " " ++ k.spelling ++ "\n"

/-- The lines of a token list. -/
def tokenLines (ts : List Token) : List String := ts.map Token.line

/-- The whole table. -/
def tokenTable (ts : List Token) : String := String.join (tokenLines ts)

/-- A sink for text. Offering it a text gives its next state and whether the text was
taken. -/
def Sink (σ : Type) : Type := σ → String → σ × Bool

/-- Offers lines to a sink one by one and stops at the first that is refused: the state of
the sink then, and whether all lines were taken. -/
def writeTo {σ : Type} (sink : Sink σ) : List String → σ → σ × Bool
  | [], s => (s, true)
  | l :: ls, s =>
    let next := sink s l
    if next.2 then writeTo sink ls next.1 else (next.1, false)

/-- A sink that keeps what it takes and takes no more texts than it has room for, or any
number when there is no limit. -/
def limitedSink : Sink (List String × Option Nat) := fun s l =>
  if s.2 = some 0 then (s, false) else ((s.1 ++ [l], s.2.map (· - 1)), true)

/-- Writes lines to a sink with limited room: the lines taken, and whether all of them
were. -/
def writeLines (room : Option Nat) (lines : List String) : List String × Bool :=
  let result := writeTo limitedSink lines ([], room)
  (result.1.1, result.2)

end Pseudocode
