/-
# Lines

Cutting a text at its newlines, and the lines of an input. An input is read
through a window of a fixed size: a line that does not fit is taken in pieces.

Key definitions: `splitLines`, `inputLines`, `linesBeforeLong`.
-/
import Pseudocode.Text.Utf8

namespace Pseudocode

/-- The pieces of a text between newlines. -/
def splitLines : List Char → List (List Char)
  | [] => [[]]
  | c :: cs =>
    if c = '\n' then [] :: splitLines cs
    else match splitLines cs with
      | [] => [[c]]
      | l :: ls => (c :: l) :: ls

/-- How many bytes of a line are read at once. -/
def windowSize : Nat := 4096

/-- The bytes of a line. -/
def lineBytes (line : List Char) : List UInt8 := line.flatMap String.utf8EncodeChar

/-- Whether a line does not fit the window together with its end. -/
def isLongLine (line : List Char) : Bool := windowSize ≤ (lineBytes line).length

/-- A line without a carriage return at its end. -/
def dropReturn (line : List UInt8) : List UInt8 :=
  if line.getLast? = some 0x0D then line.dropLast else line

/-- The pieces in which a line is read. A carriage return before a newline belongs
to the line end, so at the end of the window it is left for the next piece.
Without a newline there is no last piece that is empty. -/
def linePieces (isEnded : Bool) (line : List UInt8) : List (List UInt8) :=
  if line.length < windowSize then
    if isEnded then [dropReturn line] else if line.isEmpty then [] else [line]
  else
    let front := dropReturn (line.take windowSize)
    front :: linePieces isEnded (line.drop (max 1 front.length))
termination_by line.length
decreasing_by
  rename_i h
  simp only [windowSize] at h
  simp only [List.length_drop]
  omega

/-- The texts of a line. -/
def lineTexts (isEnded : Bool) (line : List Char) : List String :=
  (linePieces isEnded (lineBytes line)).map textOfBytes

/-- The lines of an input. After the last newline there is a line only if there is
text. -/
def inputLines (s : String) : List String :=
  let pieces := splitLines s.toList
  pieces.dropLast.flatMap (lineTexts true) ++ lineTexts false (pieces.getLastD [])

/-- The lines of an input up to the first one that does not fit the window. -/
def linesBeforeLong (s : String) : List String :=
  let pieces := splitLines s.toList
  let fitting := pieces.takeWhile (!isLongLine ·)
  if fitting.length < pieces.length then fitting.flatMap (lineTexts true) else inputLines s

end Pseudocode
