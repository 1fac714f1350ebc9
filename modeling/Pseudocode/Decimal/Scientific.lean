/-
# Numbers with an exponent

Reading a decimal with an optional sign, point and exponent as the double nearest
to it, and the words for what is no number and for the infinities.

Key definitions: `splitDecimal?`, `nearestScientific?`, `readFloat?`, `floatOfText?`.
-/
import Pseudocode.Decimal.Binary64
import Pseudocode.Text.Letter

namespace Pseudocode

/-- Splits off a sign: whether it is negative, and the rest. -/
def splitSign : List Char → Option Bool × List Char
  | '-' :: cs => (some true, cs)
  | '+' :: cs => (some false, cs)
  | cs => (none, cs)

/-- Splits a decimal with an optional exponent into the digits before and after
the point and the exponent; at least one digit stands before the exponent. -/
def splitDecimal? (cs : List Char) : Option (List Char × List Char × Int) :=
  let whole := cs.takeWhile isAsciiDigit
  let (fraction, rest) := match cs.dropWhile isAsciiDigit with
    | '.' :: cs => (cs.takeWhile isAsciiDigit, cs.dropWhile isAsciiDigit)
    | cs => ([], cs)
  if whole.isEmpty && fraction.isEmpty then none
  else match rest with
    | [] => some (whole, fraction, 0)
    | e :: cs =>
      if e ≠ 'e' && e ≠ 'E' then none
      else
        let (sign, digits) := splitSign cs
        if digits.isEmpty || !digits.all isAsciiDigit then none
        else
          let n : Int := Nat.ofDigitChars 10 digits 0
          some (whole, fraction, if sign = some true then -n else n)

/-- Exponents beyond this make any number of the lengths in use infinite, or
zero. -/
def exponentBound : Int := 100000

/-- The double nearest to the decimal `digits * 10 ^ exponent`, if there is one. -/
def nearestScientific? (digits : List Char) (exponent : Int) : Option Float :=
  let n := Nat.ofDigitChars 10 digits 0
  if n = 0 then nearestFloat? 0 1
  else if exponentBound < exponent then none
  else if exponent < -exponentBound then nearestFloat? 0 1
  else if 0 ≤ exponent then nearestFloat? (n * tenTo exponent.toNat) 1
  else nearestFloat? n (tenTo (-exponent).toNat)

/-- The double that a decimal with optional sign and exponent names. -/
def readFloat? (cs : List Char) : Option Float := do
  let (sign, unsigned) := splitSign cs
  let (whole, fraction, exponent) ← splitDecimal? unsigned
  let x ← nearestScientific? (whole ++ fraction) (exponent - fraction.length)
  pure (if sign = some true then -x else x)

/-- The double that a text names: a number, or a word for what is none. -/
def floatOfText? (s : String) : Option Float :=
  match s with
  | "NaN" => some (0.0 / 0.0)
  | "+Inf" => some (1.0 / 0.0)
  | "-Inf" => some (-1.0 / 0.0)
  | s => readFloat? s.toList

end Pseudocode
