/-
# Which texts YAML would not read as text

A plain YAML scalar that looks like a truth value, null, a number or a date is
read as one, so a text of that look has to be quoted. The looks are those of
YAML 1.1 as tools in use read them: more words for truth values, octal and
binary integers, dates, and sixty-based numbers.

Key definitions: `readsAsInt`, `readsAsFloat`, `readsAsTimestamp`, `readsAsText`,
`plainKind`.
-/
import Pseudocode.Decimal.Scientific

namespace Pseudocode.Yaml

/-- A line break of YAML. -/
def isBreak (c : Char) : Bool :=
  c == '\n' || c == '\r' || c == '\u0085' || c == '\u2028' || c == '\u2029'

/-! ### Integers -/

/-- The value of a digit in bases up to sixteen. -/
def digitValue? (c : Char) : Option Nat :=
  if isAsciiDigit c then some (c.toNat - '0'.toNat)
  else if 'a' ≤ c && c ≤ 'f' then some (c.toNat - 'a'.toNat + 10)
  else if 'A' ≤ c && c ≤ 'F' then some (c.toNat - 'A'.toNat + 10)
  else none

/-- A nonempty run of digits in a base. -/
def natInBase? (base : Nat) (cs : List Char) : Option Nat :=
  if cs.isEmpty then none
  else cs.foldlM (fun n c => do
    let d ← digitValue? c
    if d < base then pure (base * n + d) else none) 0

/-- A natural number whose first characters may name its base: `0x`, `0o`, `0b`,
and a lone zero for octal. -/
def prefixedNat? : List Char → Option Nat
  | '0' :: 'x' :: cs | '0' :: 'X' :: cs => natInBase? 16 cs
  | '0' :: 'o' :: cs | '0' :: 'O' :: cs => natInBase? 8 cs
  | '0' :: 'b' :: cs | '0' :: 'B' :: cs => natInBase? 2 cs
  | ['0'] => some 0
  | '0' :: cs => natInBase? 8 cs
  | cs => natInBase? 10 cs

/-- Whether a magnitude with a sign fits a 64-bit integer; without a sign it may
fill up to `bits` bits. -/
def fitsBits (bits : Nat) (sign : Option Bool) (n : Nat) : Bool :=
  match sign with
  | some true => n ≤ twoTo 63
  | some false => n < twoTo 63
  | none => n < twoTo bits

/-- Whether a text, its underscores dropped, reads as an integer that fits. -/
def readsAsIntIn (bits : Nat) (cs : List Char) : Bool :=
  let (sign, digits) := splitSign cs
  match prefixedNat? digits with
  | some n => fitsBits bits sign n
  | none => readsAsSignedDigits cs
where
  /-- After `0b` and `0o` a second sign is taken as well. -/
  readsAsSignedDigits : List Char → Bool
    | '0' :: 'b' :: cs => inBase 2 cs
    | '-' :: '0' :: 'b' :: cs => inBase 2 ('-' :: cs)
    | '0' :: 'o' :: cs => inBase 8 cs
    | '-' :: '0' :: 'o' :: cs => inBase 8 ('-' :: cs)
    | _ => false
  inBase (base : Nat) (cs : List Char) : Bool :=
    let (sign, digits) := splitSign cs
    match natInBase? base digits with
    | some n => fitsBits bits sign n
    | none => false

/-- Whether a text, its underscores dropped, reads as an integer. -/
def readsAsInt (cs : List Char) : Bool := readsAsIntIn 64 cs

/-! ### Floating-point numbers -/

/-- Whether underscores stand between digits only. -/
def underscoresInside : Bool → List Char → Bool
  | afterDigit, '_' :: c :: cs => afterDigit && isAsciiDigit c && underscoresInside true cs
  | _, ['_'] => false
  | _, c :: cs => underscoresInside (isAsciiDigit c) cs
  | _, [] => true

/-- Whether a text reads as a floating-point number. One that starts with a point
may have underscores between its digits; of others the underscores are dropped. -/
def readsAsFloat (cs : List Char) : Bool :=
  match cs with
  | '.' :: _ =>
    underscoresInside false cs && (readFloat? (cs.filter (· ≠ '_'))).isSome
  | _ => (readFloat? (cs.filter (· ≠ '_'))).isSome

/-! ### Dates -/

/-- A number of one or two digits, and the rest. -/
def shortNumber? : List Char → Option (Nat × List Char)
  | c :: d :: cs =>
    if !isAsciiDigit c then none
    else if isAsciiDigit d then some (Nat.ofDigitChars 10 [c, d] 0, cs)
    else some (Nat.ofDigitChars 10 [c] 0, d :: cs)
  | [c] => if isAsciiDigit c then some (Nat.ofDigitChars 10 [c] 0, []) else none
  | [] => none

/-- Drops one given character. -/
def dropChar? (c : Char) : List Char → Option (List Char)
  | d :: cs => if d = c then some cs else none
  | [] => none

/-- The days of a month. -/
def daysIn (year month : Nat) : Nat :=
  if month = 2 then
    if year % 4 = 0 && (year % 100 ≠ 0 || year % 400 = 0) then 29 else 28
  else if [4, 6, 9, 11].contains month then 30
  else 31

/-- The text after a date of four, one or two, and one or two digits. -/
def afterDate? (cs : List Char) : Option (List Char) := do
  let year := cs.take 4
  if year.length ≠ 4 || !year.all isAsciiDigit then none
  let cs ← dropChar? '-' (cs.drop 4)
  let (month, cs) ← shortNumber? cs
  let cs ← dropChar? '-' cs
  let (day, cs) ← shortNumber? cs
  if 1 ≤ month && month ≤ 12 && 1 ≤ day && day ≤ daysIn (Nat.ofDigitChars 10 year 0) month then
    pure cs
  else none

/-- The text after a time of day, with an optional fraction of a second. -/
def afterTime? (cs : List Char) : Option (List Char) := do
  let (hour, cs) ← shortNumber? cs
  let cs ← dropChar? ':' cs
  let (minute, cs) ← shortNumber? cs
  let cs ← dropChar? ':' cs
  let (second, cs) ← shortNumber? cs
  if 24 ≤ hour || 60 ≤ minute || 60 ≤ second then none
  match cs with
  | p :: d :: cs' =>
    if (p = '.' || p = ',') && isAsciiDigit d then pure (cs'.dropWhile isAsciiDigit) else pure cs
  | cs => pure cs

/-- Whether a text is an offset from universal time. -/
def isZone : List Char → Bool
  | ['Z'] => true
  | [sign, h, h', ':', m, m'] =>
    (sign = '+' || sign = '-') && [h, h', m, m'].all isAsciiDigit
      && Nat.ofDigitChars 10 [h, h'] 0 ≤ 24 && Nat.ofDigitChars 10 [m, m'] 0 ≤ 60
  | _ => false

/-- Whether a text reads as a date, with or without a time of day. -/
def readsAsTimestamp (cs : List Char) : Bool :=
  match afterDate? cs with
  | none => false
  | some [] => true
  | some (c :: rest) =>
    if c = 'T' || c = 't' then
      match afterTime? rest with
      | some zone => isZone zone
      | none => false
    else if c = ' ' then afterTime? (rest.dropWhile (· = ' ')) == some []
    else false

/-! ### Words -/

/-- The words for null. -/
def nullWords : List String := ["", "~", "null", "Null", "NULL"]

/-- The words for true. -/
def trueWords : List String := ["true", "True", "TRUE"]

/-- The words for false. -/
def falseWords : List String := ["false", "False", "FALSE"]

/-- The words that older readers take for true. -/
def oldTrueWords : List String := ["y", "Y", "yes", "Yes", "YES", "on", "On", "ON"]

/-- The words that older readers take for false. -/
def oldFalseWords : List String := ["n", "N", "no", "No", "NO", "off", "Off", "OFF"]

/-- The words for what is no number and for the infinities. -/
def numberWords : List String :=
  [".nan", ".NaN", ".NAN", ".inf", ".Inf", ".INF", "+.inf", "+.Inf", "+.INF", "-.inf", "-.Inf",
    "-.INF"]

/-! ### Sixty-based numbers -/

/-- Whether a text is a run of sixty-based digits, each after a colon, with an
optional fraction after the last; `seen` says that one came before. -/
def isSexagesimalTail : List Char → Bool → Bool
  | ':' :: d :: e :: cs, _ =>
    if isAsciiDigit d && isAsciiDigit e then d ≤ '5' && isSexagesimalTail cs true
    else isAsciiDigit d && isSexagesimalTail (e :: cs) true
  | [':', d], _ => isAsciiDigit d
  | '.' :: cs, seen => seen && cs.all fun c => isAsciiDigit c || c = '_'
  | [], seen => seen
  | _, _ => false

/-- Whether a text is a sixty-based number. -/
def isSexagesimal (cs : List Char) : Bool :=
  let digits := (splitSign cs).2
  match digits with
  | d :: ds =>
    isAsciiDigit d && isSexagesimalTail (ds.dropWhile fun c => isAsciiDigit c || c = '_') false
  | [] => false

/-- Whether a plain scalar of this text is read as that text. -/
def readsAsText (s : String) : Bool :=
  let cs := s.toList
  let plain := cs.filter (· ≠ '_')
  let isWord := (nullWords ++ trueWords ++ falseWords ++ oldTrueWords ++ oldFalseWords
    ++ numberWords).contains s
  let isNumber := match cs with
    | '.' :: _ => readsAsFloat cs
    | c :: _ =>
      (isAsciiDigit c || c = '+' || c = '-')
        && (readsAsTimestamp cs || readsAsInt plain || readsAsFloat cs || isSexagesimal cs)
    | [] => false
  !isWord && !isNumber

/-! ### What a plain scalar is read as -/

/-- What a scalar can be. -/
inductive ScalarKind where
  | null
  | flag (b : Bool)
  /-- An integer; a wide one needs all 64 bits without a sign. -/
  | integer (wide : Bool)
  | float
  | timestamp
  | text
deriving Repr, DecidableEq, Inhabited

/-- What a plain scalar is read as; dates are looked for only where they may be. -/
def plainKind (dates : Bool) (s : String) : ScalarKind :=
  let cs := s.toList
  if nullWords.contains s then .null
  else if trueWords.contains s then .flag true
  else if falseWords.contains s then .flag false
  else if numberWords.contains s then .float
  else match cs with
    | '.' :: _ => if readsAsFloat cs then .float else .text
    | c :: _ =>
      if !(isAsciiDigit c || c = '+' || c = '-') then .text
      else if dates && readsAsTimestamp cs then .timestamp
      else if readsAsInt (cs.filter (· ≠ '_')) then
        .integer !(readsAsIntIn 63 (cs.filter (· ≠ '_')))
      else if readsAsFloat cs then .float
      else .text
    | [] => .text

end Pseudocode.Yaml
