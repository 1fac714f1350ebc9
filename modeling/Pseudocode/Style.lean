/-
# Styled text

What is printed for a reader is styled by its role. Where styling is off, text
stays as it is. Where it is on, tabs become blanks, line ends are made uniform,
and the lines of a text are brought to one width; on a terminal with colours
each line is set in the colours of its role.

Key definitions: `Role`, `Styles`, `Styles.render`.
-/
import Pseudocode.Text.Lines
import Pseudocode.Text.Width

namespace Pseudocode

/-- What a text is printed as. -/
inductive Role where
  | value
  /-- The name of the stage that failed. -/
  | stage
  /-- What went wrong. -/
  | message
  /-- The title of a part of the output. -/
  | header
deriving Repr, DecidableEq, Inhabited

/-- The attributes and the colour of a role, as terminals read them. -/
def Role.code : Role → String
  | value => "1;38;2;16;185;129"
  | stage => "1;38;2;239;68;68"
  | message => "38;2;239;68;68"
  | header => "3;38;2;107;113;128"

/-- Whether text is styled, and whether it is shown in colours. -/
structure Styles where
  on : Bool := true
  colours : Bool := false
deriving Repr, DecidableEq, Inhabited

/-- Tabs become four blanks. -/
def expandTabs (cs : List Char) : List Char :=
  cs.flatMap fun c => if c = '\t' then [' ', ' ', ' ', ' '] else [c]

/-- A carriage return before a newline goes away. -/
def uniformBreaks : List Char → List Char
  | '\r' :: '\n' :: cs => '\n' :: uniformBreaks cs
  | c :: cs => c :: uniformBreaks cs
  | [] => []

namespace Styles

/-- A line in the colours of a role. -/
def paint (s : Styles) (role : Role) (line : List Char) : List Char :=
  if s.colours then
    '\x1b' :: '[' :: role.code.toList ++ 'm' :: line ++ ['\x1b', '[', '0', 'm']
  else line

/-- A text as it is printed in a role. -/
def render (s : Styles) (role : Role) (text : String) : String :=
  if !s.on then text
  else
    let lines := splitLines (uniformBreaks (expandTabs text.toList))
    let widest := (lines.map lineWidth).foldl max 0
    let padded := lines.map fun l =>
      s.paint role l ++ List.replicate (widest - lineWidth l) ' '
    String.ofList (['\n'].intercalate padded)

/-- The title of a part of the output. -/
def header (s : Styles) (title : String) : String :=
  s.render .header ("== " ++ title ++ " ==")

end Styles

end Pseudocode
