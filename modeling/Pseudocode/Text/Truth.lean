/-
# Truth values as words

The words that stand for a truth value in flags and in the environment.

Key definitions: `truthOf?`.
-/

namespace Pseudocode

/-- The truth value that a word stands for, if it does for one. -/
def truthOf? (s : String) : Option Bool :=
  if ["1", "t", "T", "TRUE", "true", "True"].contains s then some true
  else if ["0", "f", "F", "FALSE", "false", "False"].contains s then some false
  else none

end Pseudocode
