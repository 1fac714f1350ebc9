/-
# Character classes as switch points

A class of code points is written as the ascending list of points at which
membership changes: the first is where the class begins, the second where it
stops, the third where it begins again. A code point is in the class when an
odd number of switch points lie at or below it.

Key definitions: `SwitchTable`, `SwitchTable.contains`.
-/

namespace Pseudocode

/-- The ascending code points at which membership in a class changes. -/
structure SwitchTable where
  /-- Where the class begins, stops, begins again, and so on. -/
  points : List Nat
deriving Repr

namespace SwitchTable

/-- Whether a code point, met inside (`true`) or outside the class so far, is
in it once the remaining switch points are passed. -/
def scan (code : Nat) : Bool → List Nat → Bool
  | inside, [] => inside
  | inside, p :: ps => if code < p then inside else scan code (!inside) ps

/-- Membership of a character in the class. -/
def contains (t : SwitchTable) (c : Char) : Bool :=
  scan c.toNat false t.points

end SwitchTable

end Pseudocode
