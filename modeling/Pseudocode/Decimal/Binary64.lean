/-
# The double nearest to a fraction

A finite double is `m * 2 ^ s / 2 ^ 1074` with `m < 2 ^ 53`, and with
`2 ^ 52 ≤ m` unless `s = 0`; `m` and `s` are then its significand and scale.
Its bit pattern without the sign is `s * 2 ^ 52 + m`, so the patterns are
ordered as the numbers are, and a significand that rounds up to `2 ^ 53` needs
no care: the sum is already the pattern of the next scale.

Key definitions: `roundDiv`, `nearestPattern`, `nearestUnits`, `Decimal.nearest?`,
`significand`, `scaleOf`.
-/
import Pseudocode.Decimal.Basic
import Pseudocode.Decimal.Power

namespace Pseudocode

/-- The integer nearest to `num / den`; a half goes to the even neighbour. -/
def roundDiv (num den : Nat) : Nat :=
  if 2 * (num % den) < den || (2 * (num % den) == den && num / den % 2 == 0) then num / den
  else num / den + 1

/-- Doubles are whole multiples of `1 / 2 ^ 1074`. -/
def leastUnit : Nat := twoTo 1074

/-- The bit pattern of the least magnitude that is no double any more. -/
def infinityPattern : Nat := 2047 * twoTo 52

/-- The bit pattern, without sign, of the double nearest to `num / den`. It is
`infinityPattern` or more when the fraction is too large. -/
def nearestPattern (num den : Nat) : Nat :=
  let units := num * leastUnit
  let scale := (units / den).log2 - 52
  scale * twoTo 52 + roundDiv units (den * twoTo scale)

/-- The double nearest to `num / den`, as a multiple of `1 / 2 ^ 1074`, with no
bound on its size. -/
def nearestUnits (num den : Nat) : Nat :=
  let units := num * leastUnit
  let scale := (units / den).log2 - 52
  roundDiv units (den * twoTo scale) * twoTo scale

/-- The scale of the double with bit pattern `p`. -/
def scaleOf (p : Nat) : Nat := p / twoTo 52 - 1

/-- The significand of the double with bit pattern `p`. -/
def significand (p : Nat) : Nat := p - scaleOf p * twoTo 52

/-- The double nearest to `num / den`, if there is one. -/
def nearestFloat? (num den : Nat) : Option Float :=
  let p := nearestPattern num den
  if p < infinityPattern then some (Float.ofBits p.toUInt64) else none

/-- The double nearest to a decimal fraction, if there is one. -/
def Decimal.nearest? (d : Decimal) : Option Float :=
  nearestFloat? d.coeff (tenTo d.places)

end Pseudocode
