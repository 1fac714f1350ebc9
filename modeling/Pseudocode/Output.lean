/-
# Output

What a program writes: its standard output, its standard error, and the entries
it adds to the history of a session.

Key definitions: `Output`, `Output.append`.
-/

namespace Pseudocode

/-- What is written. -/
structure Output where
  out : String := ""
  err : String := ""
  history : List String := []
deriving Repr, DecidableEq, Inhabited

namespace Output

/-- One output after another. -/
def append (a b : Output) : Output := ⟨a.out ++ b.out, a.err ++ b.err, a.history ++ b.history⟩

instance : Append Output := ⟨append⟩

/-- Several outputs in turn. -/
def concat (os : List Output) : Output := os.foldr append {}

/-- A line on standard output. -/
def line (s : String) : Output := { out := s ++ "\n" }

/-- A line on standard error. -/
def errorLine (s : String) : Output := { err := s ++ "\n" }

end Output

end Pseudocode
