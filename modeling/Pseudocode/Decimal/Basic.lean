/-
# Decimal fractions

A decimal fraction is a natural number over a power of ten. It is written with
at least one digit on either side of the point and never with an exponent, and
read from digits with one point among them.

Key definitions: `Decimal`, `Decimal.chars`, `Decimal.read?`.
-/

namespace Pseudocode

/-- The fraction `coeff / 10 ^ places`. -/
structure Decimal where
  /-- All digits, read as one number. -/
  coeff : Nat
  /-- How many of them stand after the point. -/
  places : Nat
deriving Repr, DecidableEq, Inhabited

namespace Decimal

/-- The digits of the coefficient, with zeros in front so that at least one
stands before the point. -/
def digits (d : Decimal) : List Char :=
  let ds := Nat.toDigits 10 d.coeff
  List.replicate (d.places + 1 - ds.length) '0' ++ ds

/-- The written form: `3.0`, `0.25`, `120.5`. -/
def chars (d : Decimal) : List Char :=
  let whole := d.digits.length - d.places
  let fraction := if d.places = 0 then ['0'] else d.digits.drop whole
  d.digits.take whole ++ '.' :: fraction

/-- Reads digits with exactly one point among them. Digits may be missing on
either side. -/
def read? (cs : List Char) : Option Decimal :=
  match cs.span (· ≠ '.') with
  | (whole, '.' :: fraction) =>
    if fraction.contains '.' then none
    else some ⟨Nat.ofDigitChars 10 (whole ++ fraction) 0, fraction.length⟩
  | _ => none

end Decimal

end Pseudocode
