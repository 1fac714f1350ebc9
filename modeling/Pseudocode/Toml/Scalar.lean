/-
# TOML scalars

Quoted texts, in double quotes with escapes or in single quotes without, on one
line or in triple quotes on several; and the bare values: truth values, numbers
and dates. Readers take the characters after the opening quote and give the
text and the characters after the closing one, or nothing where the text is not
well formed.

Key definitions: `basicText`, `literalText`, `multilineBasic`, `multilineLiteral`,
`bareValue?`.
-/
import Pseudocode.Decimal.Scientific
import Pseudocode.Yaml.Implicit
import Pseudocode.Toml.Basic

namespace Pseudocode.Toml

/-! ### Quoted texts -/

/-- The character with a hexadecimal code, if there is one. -/
def charOfHex? (digits : List Char) : Option Char := do
  let code ← Yaml.natInBase? 16 digits
  if code.isValidChar then pure (Char.ofNat code) else none

/-- The character of an escape of one letter. -/
def escapeChar? : Char → Option Char
  | 'b' => some '\x08'
  | 't' => some '\t'
  | 'n' => some '\n'
  | 'f' => some '\x0c'
  | 'r' => some '\r'
  | '"' => some '"'
  | '\\' => some '\\'
  | _ => none

/-- Puts a character in front of a text that was read. -/
def consChar (c : Char) (read : Option (List Char × List Char)) : Option (List Char × List Char) :=
  read.map fun (text, rest) => (c :: text, rest)

/-- The text up to a double quote on the same line. -/
def basicText : List Char → Option (List Char × List Char)
  | [] => none
  | '"' :: rest => some ([], rest)
  | '\\' :: 'u' :: a :: b :: c :: d :: cs =>
    (charOfHex? [a, b, c, d]).bind fun x => consChar x (basicText cs)
  | '\\' :: 'U' :: a :: b :: c :: d :: e :: f :: g :: h :: cs =>
    (charOfHex? [a, b, c, d, e, f, g, h]).bind fun x => consChar x (basicText cs)
  | '\\' :: c :: cs => (escapeChar? c).bind fun x => consChar x (basicText cs)
  | c :: cs => if c = '\n' || c = '\r' || c = '\\' then none else consChar c (basicText cs)

/-- The text up to a single quote on the same line. -/
def literalText : List Char → Option (List Char × List Char)
  | [] => none
  | '\'' :: rest => some ([], rest)
  | c :: cs => if c = '\n' || c = '\r' then none else consChar c (literalText cs)

/-- A blank or a line break. -/
def isGap (c : Char) : Bool := c == ' ' || c == '\t' || c == '\r' || c == '\n'

/-- What follows three quotes inside triple quotes: up to two more quotes belong
to the text. -/
def closing (quote : Char) : List Char → Option (List Char × List Char)
  | a :: b :: c :: rest =>
    if a = quote && b = quote && c = quote then none
    else if a = quote && b = quote then some ([a, b], c :: rest)
    else if a = quote then some ([a], b :: c :: rest)
    else some ([], a :: b :: c :: rest)
  | [a, b] =>
    if a = quote && b = quote then some ([a, b], [])
    else if a = quote then some ([a], [b])
    else some ([], [a, b])
  | [a] => if a = quote then some ([a], []) else some ([], [a])
  | [] => some ([], [])

/-- The text up to three double quotes. A backslash at the end of a line takes
the line break and the blanks after it away; `skipping` says that this is under
way. -/
def multilineBasicFrom (skipping : Bool) : List Char → Option (List Char × List Char)
  | [] => none
  | '"' :: '"' :: '"' :: rest => closing '"' rest
  | '\\' :: 'u' :: a :: b :: c :: d :: cs =>
    (charOfHex? [a, b, c, d]).bind fun x => consChar x (multilineBasicFrom false cs)
  | '\\' :: 'U' :: a :: b :: c :: d :: e :: f :: g :: h :: cs =>
    (charOfHex? [a, b, c, d, e, f, g, h]).bind fun x => consChar x (multilineBasicFrom false cs)
  | '\\' :: c :: cs =>
    if isGap c then
      if ((c :: cs).takeWhile isGap).contains '\n' then multilineBasicFrom true cs else none
    else (escapeChar? c).bind fun x => consChar x (multilineBasicFrom false cs)
  | c :: cs =>
    if skipping && isGap c then multilineBasicFrom true cs
    else if c = '\\' then none
    else consChar c (multilineBasicFrom false cs)

/-- The text up to three single quotes. -/
def multilineLiteralFrom : List Char → Option (List Char × List Char)
  | [] => none
  | '\'' :: '\'' :: '\'' :: rest => closing '\'' rest
  | c :: cs => consChar c (multilineLiteralFrom cs)

/-- Drops a line break right after the opening quotes. -/
def dropFirstBreak : List Char → List Char
  | '\n' :: cs => cs
  | '\r' :: '\n' :: cs => cs
  | cs => cs

/-- The text after an opening quote that may be one of three. -/
def quotedText : List Char → Option (List Char × List Char)
  | '"' :: '"' :: '"' :: cs => multilineBasicFrom false (dropFirstBreak cs)
  | '"' :: cs => basicText cs
  | '\'' :: '\'' :: '\'' :: cs => multilineLiteralFrom (dropFirstBreak cs)
  | '\'' :: cs => literalText cs
  | _ => none

/-! ### Numbers -/

/-- Whether underscores stand between digits only, and digits at both ends. -/
def isDigitRun (isDigit : Char → Bool) : List Char → Bool
  | [] => false
  | [c] => isDigit c
  | c :: '_' :: cs => isDigit c && isDigitRun isDigit cs
  | c :: cs => isDigit c && isDigitRun isDigit cs

/-- The number that digits with underscores make. -/
def runValue? (base : Nat) (cs : List Char) : Option Nat :=
  if isDigitRun (fun c => (Yaml.digitValue? c).any (· < base)) cs then
    Yaml.natInBase? base (cs.filter (· ≠ '_'))
  else none

/-- Whether digits start with a zero that does not stand alone. -/
def hasLeadingZero : List Char → Bool
  | '0' :: _ :: _ => true
  | _ => false

/-- A whole number of 64 bits. Other bases than ten take no sign. -/
def integer? (cs : List Char) : Option Int := do
  let n : Int ← match cs with
    | '0' :: 'x' :: ds => (runValue? 16 ds).map Int.ofNat
    | '0' :: 'o' :: ds => (runValue? 8 ds).map Int.ofNat
    | '0' :: 'b' :: ds => (runValue? 2 ds).map Int.ofNat
    | cs =>
      let (sign, ds) := splitSign cs
      if hasLeadingZero ds then none
      else (runValue? 10 ds).map fun n => if sign = some true then -n else n
  if -(twoTo 63 : Int) ≤ n && n < (twoTo 63 : Int) then pure n else none

/-- Whether a text is a floating-point number in range: a point or an exponent,
digits on both sides of the point, and no zeros in front. -/
def isFloat (cs : List Char) : Bool :=
  let unsigned := (splitSign cs).2
  let mantissa := unsigned.takeWhile fun c => c ≠ 'e' && c ≠ 'E'
  let exponent := unsigned.dropWhile fun c => c ≠ 'e' && c ≠ 'E'
  let whole := mantissa.takeWhile (· ≠ '.')
  let fractionOk := match mantissa.dropWhile (· ≠ '.') with
    | [] => true
    | _ :: fraction => isDigitRun isAsciiDigit fraction
  let exponentOk := match exponent with
    | [] => true
    | _ :: ds => isDigitRun isAsciiDigit (splitSign ds).2
  [['i', 'n', 'f'], ['n', 'a', 'n']].contains unsigned
    || (mantissa ++ exponent ≠ whole
      && isDigitRun isAsciiDigit whole && !hasLeadingZero whole && fractionOk
      && exponentOk && (readFloat? (cs.filter (· ≠ '_'))).isSome)

/-! ### Dates -/

/-- The text after two digits and what they make. -/
def twoDigits? : List Char → Option (Nat × List Char)
  | c :: d :: cs =>
    if isAsciiDigit c && isAsciiDigit d then some (Nat.ofDigitChars 10 [c, d] 0, cs) else none
  | _ => none

/-- The text after a date. -/
def afterDate? (cs : List Char) : Option (List Char) := do
  let year := cs.take 4
  if year.length ≠ 4 || !year.all isAsciiDigit then none
  let cs ← Yaml.dropChar? '-' (cs.drop 4)
  let (month, cs) ← twoDigits? cs
  let cs ← Yaml.dropChar? '-' cs
  let (day, cs) ← twoDigits? cs
  if 1 ≤ month && month ≤ 12 && 1 ≤ day
      && day ≤ Yaml.daysIn (Nat.ofDigitChars 10 year 0) month then
    pure cs
  else none

/-- The text after a time of day. -/
def afterTime? (cs : List Char) : Option (List Char) := do
  let (hour, cs) ← twoDigits? cs
  let cs ← Yaml.dropChar? ':' cs
  let (minute, cs) ← twoDigits? cs
  let cs ← Yaml.dropChar? ':' cs
  let (second, cs) ← twoDigits? cs
  if 24 ≤ hour || 60 ≤ minute || 60 ≤ second then none
  match cs with
  | '.' :: d :: rest => if isAsciiDigit d then pure (rest.dropWhile isAsciiDigit) else none
  | cs => pure cs

/-- Whether a text is a date, a time of day, or both with or without an offset. -/
def isMoment (cs : List Char) : Bool :=
  match afterDate? cs with
  | some [] => true
  | some (c :: rest) =>
    (c = 'T' || c = 't' || c = ' ') &&
      match afterTime? rest with
      | some [] => true
      | some zone => Yaml.isZone (zone.map fun c => if c = 'z' then 'Z' else c)
      | none => false
  | none => afterTime? cs == some []

/-! ### Bare values -/

/-- A character of a value without quotes. -/
def isValueChar (c : Char) : Bool :=
  isAsciiLetter c || isAsciiDigit c || ['_', '+', '-', '.', ':'].contains c

/-- The value of a text without quotes. -/
def bareValue? (cs : List Char) : Option Value :=
  if cs = ['t', 'r', 'u', 'e'] then some (.flag true)
  else if cs = ['f', 'a', 'l', 's', 'e'] then some (.flag false)
  else match integer? cs with
    | some n => some (.integer n)
    | none => if isFloat cs then some .float else if isMoment cs then some .moment else none

/-- The characters of a value without quotes. A blank between a date and a time
of day belongs to it. -/
def bareRun (cs : List Char) : List Char × List Char :=
  let run := cs.takeWhile isValueChar
  let rest := cs.dropWhile isValueChar
  match rest with
  | ' ' :: c :: more =>
    if isAsciiDigit c && afterDate? run == some [] then
      (run ++ ' ' :: (c :: more).takeWhile isValueChar, (c :: more).dropWhile isValueChar)
    else (run, rest)
  | rest => (run, rest)

end Pseudocode.Toml
