/-
# Paths

Paths are texts of names divided by slashes. They are cleaned by their text
alone: empty names and `.` go away, and `..` takes the name before it away.

Key definitions: `Path.clean`, `Path.join`, `Path.extension`.
-/

namespace Pseudocode.Path

/-- Whether a path starts at the root. -/
def isAbsolute (p : String) : Bool := p.toList.head? == some '/'

/-- The names of a path, empty ones included. -/
def names : List Char → List (List Char)
  | [] => [[]]
  | '/' :: cs => [] :: names cs
  | c :: cs =>
    match names cs with
    | [] => [[c]]
    | n :: ns => (c :: n) :: ns

/-- Takes one name more onto the names before it, the last one first. Above the
root there is nothing; from a path that starts elsewhere one may go up. -/
def push (rooted : Bool) (before : List (List Char)) (name : List Char) : List (List Char) :=
  if name = [] || name = ['.'] then before
  else if name = ['.', '.'] then
    match before with
    | [] => if rooted then [] else [name]
    | last :: rest => if last = ['.', '.'] then name :: before else rest
  else name :: before

/-- The names of a path without those that go away. -/
def cleanNames (p : String) : List String :=
  (((names p.toList).foldl (push (isAbsolute p)) []).reverse).map String.ofList

/-- The shortest text for a path. -/
def clean (p : String) : String :=
  let body := "/".intercalate (cleanNames p)
  if isAbsolute p then "/" ++ body else if body.isEmpty then "." else body

/-- A path below another one. -/
def join (above below : String) : String :=
  if above.isEmpty && below.isEmpty then ""
  else if above.isEmpty then clean below
  else if below.isEmpty then clean above
  else clean (above ++ "/" ++ below)

/-- The end of the last name of a path from its last dot on, or nothing if it has
none. -/
def extension (p : String) : String :=
  let name := ((names p.toList).getLastD []).reverse
  let ending := name.takeWhile (· ≠ '.')
  if ending.length < name.length then String.ofList ('.' :: ending.reverse) else ""

end Pseudocode.Path
