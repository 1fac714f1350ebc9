/-
# Places in a source text

A position names a character of a source text by file, line and column, lines
and columns counted from one and columns in characters. Reading a character
moves it one column on, and reading a newline to the start of the next line.

Key definitions: `Pos`, `Pos.advance`, `Pos.advanceBy`.
-/

namespace Pseudocode

/-- A place in a source text. The default one is no place of any text. -/
structure Pos where
  /-- The name of the source, which may be empty. -/
  file : String := ""
  /-- The line, counted from one. -/
  line : Int := 0
  /-- The column in characters, counted from one. -/
  col : Int := 0
deriving Repr, DecidableEq, Inhabited

namespace Pos

/-- The place of the first character of a source. -/
def start (file : String) : Pos := ⟨file, 1, 1⟩

/-- The place after the character `c` at `p`. -/
def advance (p : Pos) (c : Char) : Pos :=
  if c = '\n' then { p with line := p.line + 1, col := 1 } else { p with col := p.col + 1 }

/-- The place after the characters `cs` that start at `p`. -/
def advanceBy (p : Pos) (cs : List Char) : Pos :=
  cs.foldl advance p

/-- `file:line:column`, without the file when it has no name. -/
def text (p : Pos) : String :=
  if p.file = "" then toString p.line ++ ":" ++ toString p.col
  else p.file ++ ":" ++ toString p.line ++ ":" ++ toString p.col

/-- The place as diagnostics word it. -/
def describe (p : Pos) : String :=
  "at line " ++ toString p.line ++ ", column " ++ toString p.col

/-- Whether it can be a place of some text. -/
def isValid (p : Pos) : Bool := 0 < p.line

end Pos

end Pseudocode
