/-
# Powers of two and of ten

The powers that binary and decimal fractions are made of.

Key definitions: `twoTo`, `tenTo`.
-/

namespace Pseudocode

/-- The power of two with exponent `n`. -/
abbrev twoTo (n : Nat) : Nat := Nat.pow 2 n

/-- The power of ten with exponent `n`. -/
abbrev tenTo (n : Nat) : Nat := Nat.pow 10 n

end Pseudocode
