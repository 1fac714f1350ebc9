/-
# Durations

A duration is a whole number of nanoseconds, 64 bits wide. It is written in
hours, minutes and seconds, `1h2m3.5s`, or below one second in the largest of the
smaller units, `1.5ms`; zeros at the end of a fraction are left out. It is read
from a sign and any number of terms, each a decimal and its unit.

A fraction of a unit is taken in double precision and cut off below the
nanosecond; the digits of a fraction that do not fit 63 bits are ignored.

Key definitions: `Duration`, `Duration.text`, `Duration.ofText`.
-/
import Pseudocode.Decimal.Binary64
import Pseudocode.Text.Letter
import Pseudocode.Text.Quoted

namespace Pseudocode

/-- A span of time. -/
structure Duration where
  nanoseconds : Int64
deriving Repr, DecidableEq, Inhabited

namespace Duration

/-! ### Writing -/

/-- The fraction `n / 10 ^ places` with its point, without zeros at its end, and
without the point if nothing is left. -/
def fractionText (places n : Nat) : List Char :=
  let digits := Nat.toDigits 10 n
  let padded := List.replicate (places - digits.length) '0' ++ digits
  match (padded.reverse.dropWhile (· = '0')).reverse with
  | [] => []
  | shown => '.' :: shown

/-- A number of units, each of `10 ^ places` nanoseconds. -/
def inUnits (places n : Nat) : List Char :=
  Nat.toDigits 10 (n / tenTo places) ++
    (if places = 0 then [] else fractionText places (n % tenTo places))

/-- A number of nanoseconds as text. -/
def magnitudeText (n : Nat) : List Char :=
  if n = 0 then ['0', 's']
  else if n < 1000 then inUnits 0 n ++ ['n', 's']
  else if n < 1000000 then inUnits 3 n ++ ['µ', 's']
  else if n < 1000000000 then inUnits 6 n ++ ['m', 's']
  else
    let minutes := n / 60000000000
    let seconds := inUnits 9 (n % 60000000000) ++ ['s']
    if minutes = 0 then seconds
    else
      let hours := minutes / 60
      let rest := Nat.toDigits 10 (minutes % 60) ++ 'm' :: seconds
      if hours = 0 then rest else Nat.toDigits 10 hours ++ 'h' :: rest

/-- A duration as text. -/
def text (d : Duration) : String :=
  let n := d.nanoseconds.toInt
  let magnitude := magnitudeText n.natAbs
  String.ofList (if n < 0 then '-' :: magnitude else magnitude)

/-! ### Reading -/

/-- Why a text is no duration. -/
inductive ReadError where
  /-- It has not the form of one, or is out of range. -/
  | invalid (text : String)
  /-- A number without a unit. -/
  | missingUnit (text : String)
  /-- A number with a unit that is none. -/
  | unknownUnit (unit text : String)
deriving Repr, DecidableEq, Inhabited

/-- A character in the quoted text of a message: what is not printable ASCII is
written byte by byte. -/
def quotedChar (c : Char) : List Char :=
  if c < ' ' || 128 ≤ c.toNat then
    (String.singleton c).toUTF8.toList.flatMap fun b => '\\' :: 'x' :: hexDigits 2 b.toNat
  else if c = '"' || c = '\\' then ['\\', c]
  else [c]

/-- A text between double quotes, as messages on durations quote it. -/
def quoted (s : String) : String :=
  String.ofList ('"' :: s.toList.flatMap quotedChar ++ ['"'])

/-- The message of an error. -/
def ReadError.message : ReadError → String
  | invalid s => "time: invalid duration " ++ quoted s
  | missingUnit s => "time: missing unit in duration " ++ quoted s
  | unknownUnit u s => "time: unknown unit " ++ quoted u ++ " in duration " ++ quoted s

/-- The nanoseconds of a unit. -/
def unit? : String → Option Nat
  | "ns" => some 1
  | "us" => some 1000
  | "µs" => some 1000
  | "μs" => some 1000
  | "ms" => some 1000000
  | "s" => some 1000000000
  | "m" => some 60000000000
  | "h" => some 3600000000000
  | _ => none

/-- The digits of a fraction as far as they fit 63 bits, after a number `x` of
`places` digits: the number they make, and how many they are. -/
def leadingFraction (x places : Nat) : List Char → Nat × Nat
  | [] => (x, places)
  | c :: cs =>
    let y := 10 * x + (c.toNat - '0'.toNat)
    if (twoTo 63 - 1) / 10 < x || twoTo 63 < y then (x, places) else leadingFraction y (places + 1) cs

/-- Ten multiplied by itself `places` times in double precision, as a multiple of
`1 / 2 ^ 1074`. -/
def scaleUnits : Nat → Nat
  | 0 => leastUnit
  | places + 1 => nearestUnits (10 * scaleUnits places) leastUnit

/-- The whole nanoseconds of `x / 10 ^ places` units, in double precision. -/
def fractionOf (unit x places : Nat) : Nat :=
  let perDigit := nearestUnits (unit * leastUnit) (scaleUnits places)
  nearestUnits (nearestUnits x 1 * perDigit) (leastUnit * leastUnit) / leastUnit

/-- A term: the digits before and after the point and the unit. -/
structure Term where
  whole : List Char
  fraction : List Char
  unit : List Char
deriving Repr, DecidableEq

/-- A character of the number of a term. -/
def isTermDigit (c : Char) : Bool := c == '.' || isAsciiDigit c

/-- The fraction after the digits of a term, and what follows. -/
def splitFraction : List Char → List Char × List Char
  | '.' :: cs => (cs.takeWhile isAsciiDigit, cs.dropWhile isAsciiDigit)
  | cs => ([], cs)

/-- Splits off the first term. -/
def splitTerm (cs : List Char) : Term × List Char :=
  let (fraction, rest) := splitFraction (cs.dropWhile isAsciiDigit)
  (⟨cs.takeWhile isAsciiDigit, fraction, rest.takeWhile fun c => !isTermDigit c⟩,
    rest.dropWhile fun c => !isTermDigit c)

/-- The nanoseconds of a term; `orig` is the text it stands in. -/
def Term.nanoseconds (orig : String) (t : Term) : Except ReadError Nat :=
  let whole := Nat.ofDigitChars 10 t.whole 0
  if twoTo 63 < whole || (t.whole.isEmpty && t.fraction.isEmpty) then .error (.invalid orig)
  else if t.unit.isEmpty then .error (.missingUnit orig)
  else match unit? (String.ofList t.unit) with
    | none => .error (.unknownUnit (String.ofList t.unit) orig)
    | some unit =>
      let (x, places) := leadingFraction 0 0 t.fraction
      let n := whole * unit + (if x = 0 then 0 else fractionOf unit x places)
      if twoTo 63 / unit < whole || twoTo 63 < n then .error (.invalid orig) else .ok n

theorem length_splitFraction_le (cs : List Char) : (splitFraction cs).2.length ≤ cs.length := by
  unfold splitFraction
  split
  · next r =>
    have h := congrArg List.length (List.takeWhile_append_dropWhile (p := isAsciiDigit) (l := r))
    simp only [List.length_append, List.length_cons] at h ⊢
    omega
  · exact Nat.le_refl _

/-- A term with a unit takes a character. -/
theorem length_splitTerm_lt {cs : List Char} (h : (splitTerm cs).1.unit ≠ []) :
    (splitTerm cs).2.length < cs.length := by
  have h1 := congrArg List.length
    (List.takeWhile_append_dropWhile (p := isAsciiDigit) (l := cs))
  have h2 := length_splitFraction_le (cs.dropWhile isAsciiDigit)
  have h3 := congrArg List.length (List.takeWhile_append_dropWhile
    (p := fun c => !isTermDigit c) (l := (splitFraction (cs.dropWhile isAsciiDigit)).2))
  have h4 := List.length_pos_iff.mpr h
  simp only [List.length_append, splitTerm] at h1 h2 h3 h4 ⊢
  omega

theorem unit_ne_nil {orig : String} {t : Term} {n : Nat} (h : t.nanoseconds orig = .ok n) :
    t.unit ≠ [] := by
  intro hu
  simp only [Term.nanoseconds, hu, List.isEmpty_nil, if_true] at h
  split at h <;> cases h

/-- The sum of the terms of a text, in front of which `sum` was read. Sums are 64
bits wide. -/
def sumTerms (orig : String) (sum : Nat) (cs : List Char) : Except ReadError Nat :=
  match cs with
  | [] => .ok sum
  | c :: cs =>
    if !isTermDigit c then .error (.invalid orig)
    else
      match _h : (splitTerm (c :: cs)).1.nanoseconds orig with
      | .error e => .error e
      | .ok n =>
        let total := (sum + n) % twoTo 64
        if twoTo 63 < total then .error (.invalid orig)
        else sumTerms orig total (splitTerm (c :: cs)).2
termination_by cs.length
decreasing_by exact length_splitTerm_lt (unit_ne_nil _h)

/-- Splits off a sign: whether it is a minus, and the rest. -/
def splitMinus : List Char → Bool × List Char
  | '-' :: cs => (true, cs)
  | '+' :: cs => (false, cs)
  | cs => (false, cs)

/-- Reads a duration. -/
def ofText (s : String) : Except ReadError Duration :=
  let (negative, cs) := splitMinus s.toList
  if cs = ['0'] then .ok ⟨0⟩
  else if cs.isEmpty then .error (.invalid s)
  else match sumTerms s 0 cs with
    | .error e => .error e
    | .ok n =>
      if negative then .ok ⟨Int64.ofInt (-n)⟩
      else if twoTo 63 ≤ n then .error (.invalid s)
      else .ok ⟨Int64.ofInt n⟩

end Duration

end Pseudocode
