/-
# The history of sessions

The entries of sessions are kept in a file, one on a line, the last thousand of
them. An entry that is the same as the one before it is not added again.

Key definitions: `History`, `History.ofText`, `History.add`, `History.text`.
-/
import Pseudocode.Text.Lines

namespace Pseudocode

/-- The entries of sessions, the first one first. -/
structure History where
  entries : List String := []
deriving Repr, DecidableEq, Inhabited

namespace History

/-- How many entries are kept. -/
def limit : Nat := 1000

/-- The last entries, as many as are kept. -/
def kept (entries : List String) : List String := entries.drop (entries.length - limit)

/-- The entries in a text, up to a line that is too long to be read. -/
def ofText (s : String) : History := ⟨kept (linesBeforeLong s)⟩

/-- Adds an entry. -/
def add (h : History) (entry : String) : History :=
  if h.entries.getLast? = some entry then h else ⟨kept (h.entries ++ [entry])⟩

/-- Adds entries in turn. -/
def addAll (h : History) (entries : List String) : History := entries.foldl add h

/-- The entries as a text. -/
def text (h : History) : String := String.join (h.entries.map (· ++ "\n"))

end History

end Pseudocode
