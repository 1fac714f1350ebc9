/-
# Reading TOML

A document is read statement by statement, each on lines of its own. Blanks and
comments are skipped; inside an array also line breaks are, inside a table on
one line they are not.

Values nest, so their readers take a bound on the number of steps. Each step
takes a character, so the length of the text is bound enough.

Key definitions: `key`, `value`, `statements`, `read?`.
-/
import Pseudocode.Toml.Scalar

namespace Pseudocode.Toml

/-- A blank inside a line. -/
def isBlankChar (c : Char) : Bool := c == ' ' || c == '\t'

/-- Drops blanks. -/
def skipBlanks (cs : List Char) : List Char := cs.dropWhile isBlankChar

/-- Drops blanks, line breaks and comments. -/
def skipGaps : Bool → List Char → List Char
  | _, [] => []
  | inComment, c :: cs =>
    if inComment then skipGaps (c ≠ '\n') cs
    else if c = '#' then skipGaps true cs
    else if isGap c then skipGaps false cs
    else c :: cs

/-- One part of a key. -/
def keyPart (cs : List Char) : Option (String × List Char) :=
  match cs with
  | '"' :: rest => (basicText rest).map fun (part, rest) => (String.ofList part, rest)
  | '\'' :: rest => (literalText rest).map fun (part, rest) => (String.ofList part, rest)
  | cs =>
    let part := cs.takeWhile isBareChar
    if part.isEmpty then none else some (String.ofList part, cs.dropWhile isBareChar)

/-- A dotted key, with blanks allowed around its parts. -/
def key : Nat → List Char → Option (Key × List Char)
  | 0, _ => none
  | steps + 1, cs => do
    let (part, rest) ← keyPart (skipBlanks cs)
    match skipBlanks rest with
    | '.' :: rest =>
      let (parts, rest) ← key steps rest
      pure (part :: parts, rest)
    | rest => pure ([part], rest)

/-- A key and the equals sign after it. -/
def keyEquals (steps : Nat) (cs : List Char) : Option (Key × List Char) := do
  let (k, rest) ← key steps cs
  match rest with
  | '=' :: rest => pure (k, rest)
  | _ => none

mutual

/-- A value. -/
def value : Nat → List Char → Option (Value × List Char)
  | 0, _ => none
  | steps + 1, cs =>
    match skipBlanks cs with
    | '"' :: cs =>
      (quotedText ('"' :: cs)).map fun (text, rest) => (.text (String.ofList text), rest)
    | '\'' :: cs =>
      (quotedText ('\'' :: cs)).map fun (text, rest) => (.text (String.ofList text), rest)
    | '[' :: cs => (items steps cs).map fun (vs, rest) => (.array vs, rest)
    | '\x7b' :: cs =>
      match skipBlanks cs with
      | '\x7d' :: rest => some (.table [], rest)
      | cs => (fields steps cs).map fun (fs, rest) => (.table fs, rest)
    | cs =>
      let (run, rest) := bareRun cs
      (bareValue? run).map fun v => (v, rest)

/-- The items of an array from the start of an item or its end on. -/
def items : Nat → List Char → Option (List Value × List Char)
  | 0, _ => none
  | steps + 1, cs =>
    match skipGaps false cs with
    | ']' :: rest => some ([], rest)
    | cs => do
      let (v, rest) ← value steps cs
      match skipGaps false rest with
      | ',' :: rest =>
        let (vs, rest) ← items steps rest
        pure (v :: vs, rest)
      | ']' :: rest => pure ([v], rest)
      | _ => none

/-- The fields of a table on one line, from the start of a field on. -/
def fields : Nat → List Char → Option (List (Key × Value) × List Char)
  | 0, _ => none
  | steps + 1, cs => do
    let (k, rest) ← keyEquals steps cs
    let (v, rest) ← value steps rest
    match skipBlanks rest with
    | ',' :: rest =>
      let (fs, rest) ← fields steps rest
      pure ((k, v) :: fs, rest)
    | '\x7d' :: rest => pure ([(k, v)], rest)
    | _ => none

end

/-- A header or an assignment. -/
def statement (steps : Nat) : List Char → Option (Statement × List Char)
  | '[' :: '[' :: cs => do
    let (k, rest) ← key steps cs
    match rest with
    | ']' :: ']' :: rest => pure (.rowHeader k, rest)
    | _ => none
  | '[' :: cs => do
    let (k, rest) ← key steps cs
    match rest with
    | ']' :: rest => pure (.header k, rest)
    | _ => none
  | cs => do
    let (k, rest) ← keyEquals steps cs
    let (v, rest) ← value steps rest
    pure (.assign k v, rest)

/-- Drops the rest of a line that holds nothing any more. -/
def endOfLine (cs : List Char) : Option (List Char) :=
  match skipBlanks cs with
  | [] => some []
  | '\n' :: rest => some rest
  | '\r' :: '\n' :: rest => some rest
  | '#' :: rest => some (rest.dropWhile (· ≠ '\n'))
  | _ => none

/-- All statements of a text. -/
def statements : Nat → List Char → Option (List Statement)
  | 0, _ => none
  | steps + 1, cs =>
    match skipGaps false cs with
    | [] => some []
    | cs => do
      let (s, rest) ← statement (cs.length + 1) cs
      let rest ← endOfLine rest
      let more ← statements steps rest
      pure (s :: more)

/-- Whether the characters may stand in a document: no control characters but
tabs and line breaks, and a carriage return only before a newline. -/
def validChars : List Char → Bool
  | [] => true
  | '\r' :: '\n' :: cs => validChars cs
  | c :: cs => (c = '\t' || c = '\n' || (' ' ≤ c && c ≠ '\x7f')) && validChars cs

/-- The statements of a document, or nothing if its text is not well formed. A
byte order mark at its front is dropped. -/
def read? (s : String) : Option (List Statement) :=
  let cs := match s.toList with
    | '\ufeff' :: cs => cs
    | cs => cs
  if validChars cs then statements (cs.length + 1) cs else none

end Pseudocode.Toml
