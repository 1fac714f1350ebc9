/-
# Places in a YAML text

A cursor is the rest of a text with the place it starts at: how many characters
and lines are before it, and its column. Line breaks are a newline, a carriage
return or both, the next-line character, and the line and paragraph separators;
the first four count as a newline when they are part of a text.

A text is read in pieces of 512 bytes, when they are needed. A piece in which
something stands that may not stand in a text cannot be read, but does no harm
where it is not needed. Of what is read, only a part is in view: a view goes up to
the end of a piece, and where more is needed a new one begins at the cursor.

Key definitions: `Cursor`, `Cursor.ofText`, `Cursor.advance`, `Cursor.skipLine`,
`Gap`, `Cursor.gap`.
-/
import Pseudocode.Yaml.Implicit

namespace Pseudocode.Yaml

/-- A blank inside a line. -/
def isSpace (c : Char) : Bool := c == ' ' || c == '\t'

/-- Whether a text is at an end, a blank or a line break. -/
def atGap : List Char → Bool
  | [] => true
  | c :: _ => isSpace c || isBreak c

/-- Whether a text is at the end of a line. -/
def atLineEnd : List Char → Bool
  | [] => true
  | c :: _ => isBreak c

/-- The text that a line break stands for. -/
def breakText (c : Char) : Char := if c = '\u2028' || c = '\u2029' then c else '\n'

/-- The rest of a text and its place. -/
structure Cursor where
  rest : List Char
  index : Nat := 0
  line : Nat := 0
  column : Nat := 0
  /-- Whether the view begins with a byte order mark. -/
  isMarked : Bool := false
  /-- The index where the first view ends. -/
  viewEnd : Nat := 0
  /-- Whether there is something behind the rest that cannot be read. -/
  isCut : Bool := false
deriving Inhabited

namespace Cursor

/-- Notes that `n` characters are needed. Where the first view does not hold them,
another one begins. -/
def need (n : Nat) (c : Cursor) : Cursor :=
  if c.viewEnd < c.index + n then { c with isMarked := false } else c

/-- Goes over `n` characters of a line. -/
def advance (n : Nat) (c : Cursor) : Cursor :=
  { c with rest := c.rest.drop n, index := c.index + n, column := c.column + n }

/-- Goes over a line break; a carriage return and a newline are one. -/
def skipLine (c : Cursor) : Cursor :=
  match c.rest with
  | '\r' :: '\n' :: cs => { c with rest := cs, index := c.index + 2, line := c.line + 1, column := 0 }
  | _ :: cs => { c with rest := cs, index := c.index + 1, line := c.line + 1, column := 0 }
  | [] => c

/-- Goes over the characters of a line as long as a test holds. -/
def skipWhile (p : Char → Bool) (c : Cursor) : Cursor := c.advance (c.rest.takeWhile p).length

/-- Goes to the end of the line. -/
def toLineEnd (c : Cursor) : Cursor := c.skipWhile (!isBreak ·)

/-- Whether a line starts with three given characters and a gap. -/
def atMark (mark : Char) (c : Cursor) : Bool :=
  match c.rest with
  | x :: y :: z :: cs => c.column == 0 && x == mark && y == mark && z == mark && atGap cs
  | _ => false

/-- Whether a line is one that divides documents. -/
def atDocumentMark (c : Cursor) : Bool := c.atMark '-' || c.atMark '.'

end Cursor

/-! ### Pieces -/

/-- A character that may stand in a text. -/
def isTextChar (c : Char) : Bool :=
  c == '\t' || c == '\n' || c == '\r' || (' ' ≤ c && c ≤ '~') || c == '\u0085' ||
    (0xA0 ≤ c.toNat && c.toNat ≤ 0xFFFD) || 0x10000 ≤ c.toNat

/-- Cuts a text after the characters that fit into `n` bytes. -/
def splitBytes : Nat → List Char → List Char × List Char
  | _, [] => ([], [])
  | n, c :: cs =>
    if n < c.utf8Size then ([], c :: cs)
    else
      let (front, back) := splitBytes (n - c.utf8Size) cs
      (c :: front, back)

/-- The pieces of a text, the first one of `n` bytes. -/
def pieces : Nat → Nat → List Char → List (List Char)
  | 0, _, _ => []
  | steps + 1, n, cs =>
    let (front, back) := splitBytes n cs
    if back.isEmpty then [front] else front :: pieces steps 512 back

/-- The start of a text. A byte order mark at its front is dropped. -/
def Cursor.ofText (s : String) : Cursor :=
  let (size, cs) := match s.toList with
    | '\ufeff' :: cs => (509, cs)
    | cs => (512, cs)
  let all := pieces (cs.length + 1) size cs
  let good := all.takeWhile (·.all isTextChar)
  { rest := good.flatten
    isMarked := cs.head? == some '\ufeff'
    viewEnd := (all.headD []).length
    isCut := good.length < all.length }

/-! ### Gaps -/

/-- The blanks and line breaks between two parts of a scalar. -/
structure Gap where
  /-- The blanks before the first line break. -/
  blanks : List Char := []
  /-- The first line break, and those after it. -/
  breaks? : Option (List Char × List Char) := none
deriving Inhabited

/-- The text that a gap stands for. A single newline is folded into a blank; of
more, the first goes away. -/
def Gap.text (g : Gap) : List Char :=
  match g.breaks? with
  | none => g.blanks
  | some (first, more) =>
    if first == ['\n'] then (if more.isEmpty then [' '] else more) else first ++ more

/-- Reads on in a gap. A tab must not stand on a new line left of the column
`least`. -/
def Cursor.gapFrom (least : Int) : Nat → Gap → Cursor → Option (Gap × Cursor)
  | 0, g, c => some (g, c)
  | steps + 1, g, c =>
    match c.rest with
    | [] => some (g, c)
    | x :: _ =>
      if isSpace x then
        match g.breaks? with
        | none => gapFrom least steps { g with blanks := g.blanks ++ [x] } (c.advance 1)
        | some _ =>
          if x = '\t' && (c.column : Int) < least then none
          else gapFrom least steps g (c.advance 1)
      else if isBreak x then
        match g.breaks? with
        | none => gapFrom least steps { g with breaks? := some ([breakText x], []) } c.skipLine
        | some (first, more) =>
          gapFrom least steps { g with breaks? := some (first, more ++ [breakText x]) } c.skipLine
      else some (g, c)

/-- Reads a gap. -/
def Cursor.gap (least : Int) (c : Cursor) : Option (Gap × Cursor) :=
  c.gapFrom least c.rest.length {}

end Pseudocode.Yaml
