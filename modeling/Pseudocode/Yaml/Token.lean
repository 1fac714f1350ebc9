/-
# The tokens of a YAML text

What a YAML text is cut into, and how the names, the tags and the lines about a
document are read. Each reader takes the text from the first character on and
gives what it read with the number of the characters that it took.

Key definitions: `Token`, `tagParts`, `directive`.
-/
import Pseudocode.Text.Utf8
import Pseudocode.Yaml.Scalar

namespace Pseudocode.Yaml

/-- A token. -/
inductive Token where
  /-- The line that says which version of YAML a document is in. -/
  | version (supported : Bool)
  /-- The line that gives a name to the first part of tags. -/
  | tagHandle (handle lead : String)
  | documentStart
  | documentEnd
  | blockSequence
  | blockMapping
  | blockEnd
  | flowSequence
  | flowSequenceEnd
  | flowMapping
  | flowMappingEnd
  | flowEntry
  | blockEntry
  | key
  | value
  | alias (name : String)
  | anchor (name : String)
  | tag (handle suffix : String)
  | scalar (text : String) (isPlain : Bool)
  | streamEnd
deriving Repr, DecidableEq, Inhabited

/-! ### Names -/

/-- A character of a name. -/
def isNameChar (c : Char) : Bool := isAsciiLetter c || isAsciiDigit c || c == '_' || c == '-'

/-- The name of an anchor or an alias. It is not empty, and ends at a gap or at a
mark. -/
def anchorName (cs : List Char) : Option (List Char) :=
  let name := cs.takeWhile isNameChar
  let after := cs.drop name.length
  let ends := atGap after || ['?', ':', ',', ']', '\x7d', '%', '@', '\x60'].contains (after.headD ' ')
  if name.isEmpty || !ends then none else some name

/-! ### Tags -/

/-- A character of a tag. -/
def isTagChar (c : Char) : Bool :=
  isNameChar c || [';', '/', '?', ':', '@', '&', '=', '+', '$', ',', '.', '!', '~', '*', '\'', '(',
    ')', '[', ']'].contains c

/-- A byte that is given by a percent sign and two hexadecimal digits. -/
def escapedByte? : List Char → Option Nat
  | '%' :: a :: b :: _ => natInBase? 16 [a, b]
  | _ => none

/-- The number of bytes of the character that begins with a byte. -/
def byteCount? (byte : Nat) : Option Nat :=
  if byte < 0x80 then some 1
  else if byte < 0xC0 then none
  else if byte < 0xE0 then some 2
  else if byte < 0xF0 then some 3
  else if byte < 0xF8 then some 4
  else none

/-- The `n` bytes that follow the first one of a character. -/
def laterBytes? : Nat → List Char → Option (List Nat)
  | 0, _ => some []
  | n + 1, cs => do
    let byte ← escapedByte? cs
    if byte < 0x80 || 0xC0 ≤ byte then none
    pure (byte :: (← laterBytes? n (cs.drop 3)))

/-- The bytes of a character that is given by its bytes. -/
def escapedBytes? (cs : List Char) : Option (List Nat) := do
  let byte ← escapedByte? cs
  let count ← byteCount? byte
  pure (byte :: (← laterBytes? (count - 1) (cs.drop 3)))

/-- The part of a tag that `cs` begins with, in at most `steps` characters, and
how many characters of `cs` it takes. -/
def tagText : Nat → List Char → Option (List Char × Nat)
  | 0, _ => some ([], 0)
  | _, [] => some ([], 0)
  | steps + 1, c :: cs =>
    if c = '%' then do
      let bytes ← escapedBytes? (c :: cs)
      let width := 3 * bytes.length
      let (text, n) ← tagText steps ((c :: cs).drop width)
      pure ((textOfBytes (bytes.map UInt8.ofNat)).toList ++ text, width + n)
    else if isTagChar c then (tagText steps cs).map fun (text, n) => (c :: text, n + 1)
    else some ([], 0)

/-- A part of a tag that is not empty. -/
def tagText? (cs : List Char) : Option (List Char × Nat) :=
  (tagText cs.length cs).filter fun (_, n) => 0 < n

/-- The handle and the rest of a tag from its exclamation mark on. -/
def tagParts (cs : List Char) : Option (String × String × Nat) :=
  match cs with
  | '!' :: '<' :: cs => do
    let (text, n) ← tagText? cs
    if cs[n]? != some '>' then none
    pure ("", String.ofList text, n + 3)
  | cs => do
    let name := (cs.drop 1).takeWhile isNameChar
    if cs[1 + name.length]? == some '!' then
      let (text, n) ← tagText? (cs.drop (2 + name.length))
      pure (String.ofList ('!' :: name ++ ['!']), String.ofList text, 2 + name.length + n)
    else
      let (text, n) ← tagText cs.length (cs.drop 1)
      if n = 0 then pure ("", "!", 1) else pure ("!", String.ofList text, 1 + n)

/-! ### Lines about a document -/

/-- A number of a version, of at most two digits. -/
def versionNumber (cs : List Char) : Option (Nat × Nat) :=
  let digits := cs.takeWhile isAsciiDigit
  if digits.isEmpty || 2 < digits.length then none
  else some (Nat.ofDigitChars 10 digits 0, digits.length)

/-- The version that a document is in. Only one is supported. -/
def versionLine (cs : List Char) : Option (Token × Nat) := do
  let (major, n) ← versionNumber cs
  if cs[n]? != some '.' then none
  let (minor, m) ← versionNumber (cs.drop (n + 1))
  pure (.version (major == 1 && minor == 1), n + 1 + m)

/-- A handle of tags and what it stands for. -/
def tagLine (cs : List Char) : Option (Token × Nat) := do
  let name := (cs.drop 1).takeWhile isNameChar
  if cs.head? != some '!' then none
  let handle ←
    if cs[1 + name.length]? == some '!' then pure ('!' :: name ++ ['!'])
    else if name.isEmpty then pure ['!']
    else none
  let blanks := (cs.drop handle.length).takeWhile isSpace
  if blanks.isEmpty then none
  let start := handle.length + blanks.length
  let (lead, n) ← tagText? (cs.drop start)
  if !atGap (cs.drop (start + n)) then none
  pure (.tagHandle (String.ofList handle) (String.ofList lead), start + n)

/-- A line about a document from its percent sign on, up to the end of the line.
It may end with a comment. -/
def directive (cs : List Char) : Option (Token × Nat) := do
  let name := (cs.drop 1).takeWhile isNameChar
  let words := cs.drop (1 + name.length)
  if !atGap words then none
  let start := words.dropWhile isSpace
  let (t, n) ←
    if name = ['Y', 'A', 'M', 'L'] then versionLine start
    else if name = ['T', 'A', 'G'] then tagLine start
    else none
  let last := (start.drop n).dropWhile isSpace
  let last := if last.head? == some '#' then last.dropWhile (!isBreak ·) else last
  if !atLineEnd last then none
  pure (t, cs.length - last.length)

end Pseudocode.Yaml
