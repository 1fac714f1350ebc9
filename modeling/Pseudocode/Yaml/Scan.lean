/-
# Cutting a YAML text into tokens

Indentation becomes tokens of its own: a block of entries or of keys begins where
a line is indented more than the block around it, and ends where one is indented
less. Whether a scalar, an alias or a bracket is a key is known only at the colon
after it, which has to come on the same line. So the place where a key may begin
is remembered, and the token that marks a key is put in at that place later.

Tokens are cut off as a reader needs them. It looks two tokens ahead, and further
while the token at the front may turn out to begin a key. So what is wrong behind
the part that is needed is never found. A pair of brackets with no place for a key
in it is handed out at once; a colon behind it, for which it would be the key,
comes too late then, and its marks go to the end of the queue.

Key definitions: `Scan`, `Scan.step`, `Scan.fill`, `Scan.ofText`.
-/
import Pseudocode.Yaml.Token

namespace Pseudocode.Yaml

/-- A place where a key may have begun. -/
structure KeyPlace where
  /-- Whether a key may still have begun here. -/
  isPossible : Bool := false
  /-- Whether nothing but a key can be here. -/
  isRequired : Bool := false
  /-- The number of the tokens before the key. -/
  number : Nat := 0
  index : Nat := 0
  line : Nat := 0
  column : Nat := 0
deriving Inhabited

/-- Whether a colon at the cursor makes a key of what began at a place. A key is
on one line and not too long; nothing comes back where a key is required and none
is there. -/
def KeyPlace.isOpen? (p : KeyPlace) (c : Cursor) : Option Bool :=
  if !p.isPossible then some false
  else if p.line < c.line || p.index + 1024 < c.index then
    if p.isRequired then none else some false
  else some true

/-- A text that is being cut into tokens. -/
structure Scan where
  cursor : Cursor
  /-- The column of the innermost block; before the first block, minus one. -/
  indent : Int := -1
  /-- The columns of the blocks around it. -/
  outer : List Int := []
  /-- Whether a key may begin here. -/
  keyAllowed : Bool := true
  /-- The places where a key may have begun: one inside each bracket that is open,
  the innermost first, and one outside. -/
  places : List KeyPlace := [{}]
  /-- The numbers of tokens that may begin a key, with the number of the places that
  there were. -/
  waiting : List (Nat × Nat) := []
  /-- The tokens that are cut off and not taken yet. -/
  queue : List Token := []
  /-- The number of the tokens that are taken. -/
  taken : Nat := 0
  /-- Whether the last token took the end of its line with it. -/
  lineEnded : Bool := false
deriving Inhabited

namespace Scan

/-- A text of which nothing is cut off yet. -/
def ofText (s : String) : Scan := { cursor := .ofText s }

/-- Whether a bracket is open. -/
def inFlow (s : Scan) : Bool := 1 < s.places.length

/-- Adds a token. -/
def push (t : Token) (s : Scan) : Scan := { s with queue := s.queue ++ [t] }

/-- The number of the next token. -/
def number (s : Scan) : Nat := s.taken + s.queue.length

/-- Puts a token in at the place of the one with a number; if that is taken
already, at the end. -/
def insert (number : Nat) (t : Token) (s : Scan) : Scan :=
  if number < s.taken then s.push t
  else
    let before := number - s.taken
    { s with queue := s.queue.take before ++ t :: s.queue.drop before }

/-- Goes over `n` characters. -/
def advance (n : Nat) (s : Scan) : Scan := { s with cursor := s.cursor.advance n }

/-! ### Blocks -/

/-- Ends the blocks that are indented more than a column. -/
def closeBlocks (column : Int) (s : Scan) : Scan :=
  if s.inFlow then s else
  let closed := (s.indent :: s.outer).takeWhile (column < ·)
  let kept := (s.indent :: s.outer).dropWhile (column < ·)
  { s with
    queue := s.queue ++ List.replicate closed.length .blockEnd
    indent := kept.headD (-1)
    outer := kept.drop 1 }

/-- Begins a block at a column if it is further right than the innermost one. The
token of the block is put in at the place of the one with a number. -/
def openBlock (column number : Nat) (t : Token) (s : Scan) : Scan :=
  if s.inFlow || (column : Int) ≤ s.indent then s
  else { s.insert number t with indent := column, outer := s.indent :: s.outer }

/-! ### Keys -/

/-- The place where a key may have begun between the innermost brackets. -/
def place (s : Scan) : KeyPlace := s.places.headD {}

/-- Sets the place where a key may have begun between the innermost brackets. -/
def setPlace (p : KeyPlace) (s : Scan) : Scan := { s with places := p :: s.places.drop 1 }

/-- No longer waits to see whether the token with a number begins a key. -/
def stopWaiting (number : Nat) (s : Scan) : Scan :=
  { s with waiting := s.waiting.filter (·.1 ≠ number) }

/-- Gives up the place where a key may have begun, unless nothing but a key can
be there. -/
def dropPlace (s : Scan) : Option Scan :=
  let p := s.place
  if !p.isPossible then some s
  else if p.isRequired then none
  else some ((s.setPlace { p with isPossible := false }).stopWaiting p.number)

/-- Remembers that a key may begin here. -/
def notePlace (s : Scan) : Option Scan :=
  if !s.keyAllowed then some s
  else do
    let p : KeyPlace :=
      { isPossible := true
        isRequired := !s.inFlow && s.indent == (s.cursor.column : Int)
        number := s.number
        index := s.cursor.index
        line := s.cursor.line
        column := s.cursor.column }
    let s ← s.dropPlace
    let s := (s.setPlace p).stopWaiting p.number
    pure { s with waiting := (p.number, s.places.length) :: s.waiting }

/-! ### Between tokens -/

/-- Whether a character stands between the lines of comments. -/
def isLoose (c : Char) : Bool := c == ' ' || c == '\t' || c == '\n' || c == '\r'

/-- Goes over blanks and newlines. -/
def skipLoose : Nat → Cursor → Cursor
  | 0, c => c
  | steps + 1, c =>
    match c.rest with
    | x :: _ =>
      if !isLoose x then c
      else skipLoose steps (if isBreak x then c.skipLine else c.advance 1)
    | [] => c

/-- Goes over a comment, and over further ones that follow it with nothing but
blanks and newlines between, if they are near. -/
def skipComments : Nat → Cursor → Cursor
  | 0, c => c
  | steps + 1, c =>
    let c := c.toLineEnd
    if c.rest.head? == some '\n' || c.rest.head? == some '\r' then
      let next := skipLoose c.rest.length c
      if next.rest.head? == some '#' && next.index < c.index + 512 then skipComments steps next
      else c
    else c

/-- Goes over blanks, comments and line breaks up to the next token. Outside
brackets a tab is no blank where a key may begin, and a new line may begin with
a key. While a byte order mark is at the front of the view, the first character of
a line is taken for it. -/
def skipGaps : Nat → Scan → Scan
  | 0, s => s
  | steps + 1, s =>
    let c := s.cursor.need 1
    let c := if c.column = 0 && c.isMarked then c.advance 1 else c
    let c := c.skipWhile fun x => x == ' ' || ((s.inFlow || !s.keyAllowed) && x == '\t')
    let c := if c.rest.head? == some '#' then skipComments c.rest.length c else c
    match c.rest with
    | x :: _ =>
      if isBreak x then
        skipGaps steps { s with cursor := c.skipLine, keyAllowed := s.keyAllowed || !s.inFlow }
      else { s with cursor := c }
    | [] => { s with cursor := c }

/-- Goes over a comment on the line of the token before, if it is near. The dash
of an entry has no comment of its own. -/
def skipLineComment (s : Scan) : Scan :=
  let blanks := s.cursor.rest.takeWhile isSpace
  let c := s.cursor.advance blanks.length
  if s.lineEnded || s.queue.getLast? == some .blockEntry || 512 ≤ blanks.length
      || c.rest.head? != some '#' then s
  else { s with cursor := c.toLineEnd }

/-! ### Tokens -/

/-- Ends all blocks; no key can be open then. -/
def endBlocks (s : Scan) : Option Scan :=
  (dropPlace (s.closeBlocks (-1))).map fun s => { s with keyAllowed := false }

/-- The end of the text. It is at the front of a line. -/
def finish (s : Scan) : Option Scan :=
  let c := s.cursor
  let c := if c.column = 0 then c else { c with line := c.line + 1, column := 0 }
  (endBlocks { s with cursor := c }).map (·.push .streamEnd)

/-- A mark that divides documents. -/
def documentMark (t : Token) (s : Scan) : Option Scan :=
  s.endBlocks.map fun s => (s.advance 3).push t

/-- A line about a document. -/
def documentLine (s : Scan) : Option Scan := do
  let s ← s.endBlocks
  let (t, n) ← directive s.cursor.rest
  let c := s.cursor.advance n
  pure ({ s with cursor := if c.rest.isEmpty then c else c.skipLine }.push t)

/-- An opening bracket. -/
def openBracket (t : Token) (s : Scan) : Option Scan := do
  let s ← s.notePlace
  let inside : KeyPlace := { number := s.number }
  pure (({ s with places := inside :: s.places, keyAllowed := true }.advance 1).push t)

/-- A closing bracket. -/
def closeBracket (t : Token) (s : Scan) : Option Scan := do
  let s ← s.dropPlace
  let s := if s.inFlow then { s.stopWaiting s.place.number with places := s.places.drop 1 } else s
  pure (({ s with keyAllowed := false }.advance 1).push t)

/-- A comma between brackets. -/
def comma (s : Scan) : Option Scan := do
  let s ← s.dropPlace
  pure (({ s with keyAllowed := true }.advance 1).push .flowEntry)

/-- The dash before an entry. -/
def dash (s : Scan) : Option Scan := do
  if !s.inFlow && !s.keyAllowed then none
  let s ← (s.openBlock s.cursor.column s.number .blockSequence).dropPlace
  pure (({ s with keyAllowed := true }.advance 1).push .blockEntry)

/-- The question mark before a key. -/
def question (s : Scan) : Option Scan := do
  if !s.inFlow && !s.keyAllowed then none
  let s ← (s.openBlock s.cursor.column s.number .blockMapping).dropPlace
  pure (({ s with keyAllowed := !s.inFlow }.advance 1).push .key)

/-- The colon before a value. -/
def colon (s : Scan) : Option Scan := do
  let p := s.place
  if ← p.isOpen? s.cursor then
    let s := (s.insert p.number .key).openBlock p.column p.number .blockMapping
    let s := (s.setPlace { p with isPossible := false }).stopWaiting p.number
    pure (({ s with keyAllowed := false }.advance 1).push .value)
  else
    if !s.inFlow && !s.keyAllowed then none
    let s := s.setPlace { p with isPossible := false }
    let s := s.openBlock s.cursor.column s.number .blockMapping
    pure (({ s with keyAllowed := !s.inFlow }.advance 1).push .value)

/-- An anchor or an alias: a mark and a name. -/
def named (t : String → Token) (s : Scan) : Option Scan := do
  let s ← s.notePlace
  let name ← anchorName (s.cursor.rest.drop 1)
  pure (({ s with keyAllowed := false }.advance (1 + name.length)).push (t (String.ofList name)))

/-- A tag. -/
def tag (s : Scan) : Option Scan := do
  let s ← s.notePlace
  let (handle, suffix, n) ← tagParts s.cursor.rest
  if !atGap (s.cursor.rest.drop n) then none
  pure (({ s with keyAllowed := false }.advance n).push (.tag handle suffix))

/-- A text in a block. -/
def block (folded : Bool) (s : Scan) : Option Scan := do
  let s ← s.dropPlace
  let (text, c) ← blockText folded s.indent s.cursor
  pure ({ s with keyAllowed := true, lineEnded := true, cursor := c }.push
    (.scalar (String.ofList text) false))

/-- A text in quotes. -/
def quoted (read : Cursor → Option (List Char × Cursor)) (s : Scan) : Option Scan := do
  let s ← s.notePlace
  let (text, c) ← read s.cursor
  pure ({ s with keyAllowed := false, cursor := c }.push (.scalar (String.ofList text) false))

/-- A text without quotes. After a line break a key may begin again. -/
def plain (s : Scan) : Option Scan := do
  let s ← s.notePlace
  let (text, broken, c) ← plainText s.inFlow s.indent s.cursor
  pure ({ s with keyAllowed := broken, lineEnded := broken, cursor := c }.push
    (.scalar (String.ofList text) true))

/-- A character that no plain text begins with. -/
def isIndicator (c : Char) : Bool :=
  ['-', '?', ':', ',', '[', ']', '\x7b', '\x7d', '#', '&', '*', '!', '|', '>', '\'', '"', '%', '@',
    '\x60'].contains c

/-- Cuts off the token that begins with `c`, where `cs` is the text behind it. -/
def tokenAt (c : Char) (cs : List Char) (s : Scan) : Option Scan :=
  if c = '[' then s.openBracket .flowSequence
  else if c = '\x7b' then s.openBracket .flowMapping
  else if c = ']' then s.closeBracket .flowSequenceEnd
  else if c = '\x7d' then s.closeBracket .flowMappingEnd
  else if c = ',' then s.comma
  else if c = '-' && atGap cs then s.dash
  else if c = '?' && (s.inFlow || atGap cs) then s.question
  else if c = ':' && (s.inFlow || atGap cs) then s.colon
  else if c = '*' then s.named .alias
  else if c = '&' then s.named .anchor
  else if c = '!' then s.tag
  else if c = '|' && !s.inFlow then s.block false
  else if c = '>' && !s.inFlow then s.block true
  else if c = '\'' then s.quoted singleQuotedText
  else if c = '"' then s.quoted doubleQuotedText
  else if !(isSpace c || isIndicator c) || c = '-' || (!s.inFlow && (c = '?' || c = ':')) then
    s.plain
  else none

/-- Whether the characters that are needed next can be read. -/
def isReadable (n : Nat) (s : Scan) : Bool := !s.cursor.isCut || n ≤ s.cursor.rest.length

/-- Cuts off the next token, if the text follows the rules. -/
def step (s : Scan) : Option Scan :=
  let s := s.skipGaps (s.cursor.rest.length + 1)
  let s := { s.closeBlocks s.cursor.column with cursor := s.cursor.need 4, lineEnded := false }
  let next? := match s.cursor.rest with
    | [] => s.finish
    | c :: cs =>
      if s.cursor.column = 0 && c = '%' then s.documentLine
      else if s.cursor.atMark '-' then s.documentMark .documentStart
      else if s.cursor.atMark '.' then s.documentMark .documentEnd
      else (s.tokenAt c cs).map skipLineComment
  if !s.isReadable 4 then none else next?.filter (·.isReadable 1)

/-! ### Tokens for a reader -/

/-- The place that is one of the `level` outermost ones, and the innermost of
these. -/
def placeAt? (level : Nat) (s : Scan) : Option KeyPlace := s.places.reverse[level - 1]?

/-- Notes that no key began at such a place. -/
def closePlaceAt (level : Nat) (s : Scan) : Scan :=
  { s with places := (s.places.reverse.modify (level - 1) ({ · with isPossible := false })).reverse }

/-- Cuts off as many tokens as a reader has to see. -/
def fill : Nat → Scan → Option Scan
  | 0, _ => none
  | steps + 1, s =>
    if s.queue.length < 3 then s.step.bind (fill steps)
    else match s.waiting.lookup s.taken with
      | none => some s
      | some level => do
        let p := (s.placeAt? level).getD {}
        if ← p.isOpen? s.cursor then s.step.bind (fill steps) else pure (s.closePlaceAt level)

/-- The token at the front. -/
def peek (s : Scan) : Option (Token × Scan) := do
  let s ← s.fill (s.cursor.rest.length + 4)
  pure (← s.queue.head?, s)

/-- Takes the token at the front. -/
def skip (s : Scan) : Scan := { s with queue := s.queue.drop 1, taken := s.taken + 1 }

end Scan

end Pseudocode.Yaml
