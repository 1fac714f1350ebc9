/-
# Blanks around a line

The characters with the Unicode property White_Space, and trimming a line of
them at both ends.

Key definitions: `isBlank`, `trimBlanks`.
-/
import Pseudocode.Text.SwitchTable

namespace Pseudocode

/-- White space outside ASCII. -/
def blankTable : SwitchTable := ⟨[
  0x85, 0x86, 0xa0, 0xa1, 0x1680, 0x1681, 0x2000, 0x200b, 0x2028, 0x202a, 0x202f, 0x2030,
  0x205f, 0x2060, 0x3000, 0x3001]⟩

/-- A character of white space: tab, newline, vertical tab, form feed, carriage
return, space, and those outside ASCII. -/
def isBlank (c : Char) : Bool :=
  if c.toNat < 128 then c == ' ' || ('\t' ≤ c && c ≤ '\r') else blankTable.contains c

/-- The characters without the blanks at either end. -/
def trimBlanks (cs : List Char) : List Char :=
  ((cs.dropWhile isBlank).reverse.dropWhile isBlank).reverse

/-- A text without the blanks at either end. -/
def trimmed (s : String) : String :=
  String.ofList (trimBlanks s.toList)

end Pseudocode
