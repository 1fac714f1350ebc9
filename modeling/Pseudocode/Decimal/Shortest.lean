/-
# The shortest decimal that reads back

A finite double is written with as few digits as still read back as the same
double, and of those decimals with the one nearest to it. The decimals that
read back are those between the midpoints to the neighbouring doubles, both
ends included exactly when the significand is even. The search goes over
grids of decimals, multiples of a power of ten, from coarse to fine: on each
only the two grid points around the double can be the answer, and the first
grid with a hit gives it. Of two hits the nearer one wins, and in a tie the even
one.

All is exact arithmetic on natural numbers: a double is a multiple of
`1 / 2 ^ 1074`, the midpoints are multiples of `1 / 2 ^ 1076`, and no grid finer
than `10 ^ -324` is ever needed.

Key definitions: `ReadBack`, `ReadBack.onGrid?`, `shortestDecimal`, `floatText`.
-/
import Pseudocode.Decimal.Binary64

namespace Pseudocode

/-- The numerators, over `2 ^ 1076`, of a double and of the ends of the interval of
numbers that round to it. -/
structure ReadBack where
  /-- The midpoint to the double below. -/
  low : Nat
  /-- The double itself. -/
  value : Nat
  /-- The midpoint to the double above. -/
  high : Nat
  /-- Whether the ends themselves round to the double. -/
  closed : Bool
deriving Repr

/-- Decimals are searched among the multiples of `1 / 10 ^ 324`. -/
def finestPlaces : Nat := 324

/-- The interval of numbers that round to the double with pattern `p`. The
double below is only half as far away when the significand is the least of its
scale. -/
def readBackOf (p : Nat) : ReadBack :=
  let m := significand p
  let unit := twoTo (scaleOf p)
  let below := if m = twoTo 52 && scaleOf p ≠ 0 then 1 else 2
  ⟨(4 * m - below) * unit, 4 * m * unit, (4 * m + 2) * unit, m % 2 == 0⟩

namespace ReadBack

/-- Whether `n` multiples of `10 ^ j / 10 ^ 324` round to the double. -/
def contains (r : ReadBack) (j n : Nat) : Bool :=
  let point := n * tenTo j * twoTo 1076
  let low := r.low * tenTo finestPlaces
  let high := r.high * tenTo finestPlaces
  if r.closed then low ≤ point && point ≤ high else low < point && point < high

/-- The better of the two points around the double on the grid of the multiples
of `10 ^ j / 10 ^ 324`, if one of them reads back. -/
def onGrid? (r : ReadBack) (j : Nat) : Option Nat :=
  let step := tenTo j * twoTo 1076
  let scaled := r.value * tenTo finestPlaces
  let below := scaled / step
  match r.contains j below, r.contains j (below + 1) with
  | true, true => some (roundDiv scaled step)
  | true, false => some below
  | false, true => some (below + 1)
  | false, false => none

/-- The decimal of `n` multiples of `10 ^ j / 10 ^ 324`. -/
def decimalOn (j n : Nat) : Decimal :=
  if j ≤ finestPlaces then ⟨n, finestPlaces - j⟩ else ⟨n * tenTo (j - finestPlaces), 0⟩

/-- The first hit among the grids from `j` down to the finest. -/
def search (r : ReadBack) : Nat → Decimal
  | 0 => decimalOn 0 ((r.onGrid? 0).getD 0)
  | j + 1 =>
    match r.onGrid? (j + 1) with
    | some n => decimalOn (j + 1) n
    | none => r.search j

end ReadBack

/-- The shortest decimal that reads back as the double with pattern `p`. -/
def shortestDecimal (p : Nat) : Decimal :=
  if p = 0 then ⟨0, 0⟩
  else
    let r := readBackOf p
    let whole := r.value * tenTo finestPlaces / twoTo 1076
    r.search (Nat.toDigits 10 whole).length

/-- A double as text: always with a point when it is finite, and with its sign,
also for zero. -/
def floatText (x : Float) : String :=
  let bits := x.toBits.toNat
  let pattern := bits % twoTo 63
  let negative := twoTo 63 ≤ bits
  if infinityPattern < pattern then "NaN"
  else if pattern = infinityPattern then if negative then "-Inf" else "+Inf"
  else
    let magnitude := (shortestDecimal pattern).chars
    String.ofList (if negative then '-' :: magnitude else magnitude)

end Pseudocode
