/-
# YAML scalars

Texts without quotes, in single quotes, in double quotes, and in blocks of
indented lines. Each reader takes a cursor at the first character of its text
and gives the text and the cursor behind it, or nothing where the text is not
well formed.

Key definitions: `plainText`, `singleQuotedText`, `doubleQuotedText`, `blockText`.
-/
import Pseudocode.Yaml.Cursor

namespace Pseudocode.Yaml

/-! ### Plain texts -/

/-- Whether a character ends a plain text inside brackets. -/
def isFlowMark (c : Char) : Bool := [',', '?', '[', ']', '\x7b', '\x7d'].contains c

/-- The characters of a plain text up to a gap, to a colon before a gap, or inside
brackets to a mark. -/
def plainWord (inFlow : Bool) : List Char → List Char
  | [] => []
  | c :: cs =>
    if isSpace c || isBreak c || (c = ':' && atGap cs) || (inFlow && isFlowMark c) then []
    else c :: plainWord inFlow cs

/-- Reads on in a plain text after a gap. The result says also whether the last
gap had a line break. -/
def plainFrom (inFlow : Bool) (indent : Int) :
    Nat → Gap → Cursor → Option (List Char × Bool × Cursor)
  | 0, _, _ => none
  | steps + 1, g, c => do
    let c := c.need 4
    let stop := (([], g.breaks?.isSome, c) : List Char × Bool × Cursor)
    if c.atDocumentMark || c.rest.head? == some '#' then return stop
    let word := plainWord inFlow c.rest
    let lead := if word.isEmpty then [] else g.text ++ word
    let here := c.advance word.length
    let pending := if word.isEmpty then g else {}
    if here.rest.isEmpty || !atGap here.rest then return (lead, pending.breaks?.isSome, here)
    let (gap, next) ← here.gapFrom (indent + 1) here.rest.length pending
    if !inFlow && (next.column : Int) < indent + 1 then return (lead, gap.breaks?.isSome, next)
    let (text, broken, last) ← plainFrom inFlow indent steps gap next
    return (lead ++ text, broken, last)

/-- A text without quotes. -/
def plainText (inFlow : Bool) (indent : Int) (c : Cursor) : Option (List Char × Bool × Cursor) :=
  plainFrom inFlow indent (c.rest.length + 1) {} c

/-! ### Quoted texts -/

/-- Puts a text in front of a text that was read. -/
def before (lead : List Char) (read : Option (List Char × Cursor)) : Option (List Char × Cursor) :=
  read.map fun (text, c) => (lead ++ text, c)

/-- The text up to a single quote. Two single quotes stand for one. -/
def singleFrom : Nat → Cursor → Option (List Char × Cursor)
  | 0, _ => none
  | steps + 1, c =>
    if c.atDocumentMark then none
    else match c.rest with
      | [] => none
      | '\'' :: '\'' :: _ => before ['\''] (singleFrom steps (c.advance 2))
      | '\'' :: _ => some ([], c.advance 1)
      | x :: _ =>
        if isSpace x || isBreak x then
          (c.gap 0).bind fun (g, next) => before g.text (singleFrom steps (next.need 4))
        else before [x] (singleFrom steps (c.advance 1))

/-- A text in single quotes. -/
def singleQuotedText (c : Cursor) : Option (List Char × Cursor) :=
  singleFrom (c.rest.length + 1) ((c.advance 1).need 4)

/-- The character of an escape of one letter. -/
def escapeChar? : Char → Option Char
  | '0' => some '\x00'
  | 'a' => some '\x07'
  | 'b' => some '\x08'
  | 't' => some '\t'
  | '\t' => some '\t'
  | 'n' => some '\n'
  | 'v' => some '\x0b'
  | 'f' => some '\x0c'
  | 'r' => some '\r'
  | 'e' => some '\x1b'
  | ' ' => some ' '
  | '"' => some '"'
  | '\'' => some '\''
  | '\\' => some '\\'
  | 'N' => some '\u0085'
  | '_' => some '\u00a0'
  | 'L' => some '\u2028'
  | 'P' => some '\u2029'
  | _ => none

/-- The number of hexadecimal digits after the letter of an escape. -/
def escapeWidth? : Char → Option Nat
  | 'x' => some 2
  | 'u' => some 4
  | 'U' => some 8
  | _ => none

/-- The character of an escape with the letter `letter` and the text `cs` after
it, and how many characters the escape takes after the backslash. -/
def escape? (letter : Char) (cs : List Char) : Option (Char × Nat) :=
  match escapeWidth? letter with
  | none => (escapeChar? letter).map (·, 1)
  | some width => do
    let digits := cs.take width
    if digits.length ≠ width then none
    let code ← natInBase? 16 digits
    if code.isValidChar then pure (Char.ofNat code, 1 + width) else none

/-- The text up to a double quote. A backslash at the end of a line takes the
line break away. -/
def doubleFrom : Nat → Cursor → Option (List Char × Cursor)
  | 0, _ => none
  | steps + 1, c =>
    if c.atDocumentMark then none
    else match c.rest with
      | [] => none
      | '"' :: _ => some ([], c.advance 1)
      | '\\' :: x :: cs =>
        if isBreak x then
          let next := (c.advance 1).skipLine
          (next.gapFrom 0 next.rest.length { breaks? := some ([], []) }).bind fun (g, last) =>
            before g.text (doubleFrom steps (last.need 4))
        else
          (escape? x cs).bind fun (y, n) => before [y] (doubleFrom steps (c.advance (1 + n)))
      | x :: _ =>
        if isSpace x || isBreak x then
          (c.gap 0).bind fun (g, next) => before g.text (doubleFrom steps (next.need 4))
        else before [x] (doubleFrom steps (c.advance 1))

/-- A text in double quotes. -/
def doubleQuotedText (c : Cursor) : Option (List Char × Cursor) :=
  doubleFrom (c.rest.length + 1) ((c.advance 1).need 4)

/-! ### Blocks -/

/-- What becomes of the line breaks at the end of a block. -/
inductive Chomping where
  /-- All go away. -/
  | strip
  /-- One stays. -/
  | clip
  /-- All stay. -/
  | keep
deriving Repr, DecidableEq, Inhabited

/-- What becomes of the line breaks, as an indicator says it. -/
def chomping? : Char → Option Chomping
  | '-' => some .strip
  | '+' => some .keep
  | _ => none

/-- The header of a block: what becomes of the line breaks at its end, and by how
much it is indented if that is said. -/
def blockHeader (c : Cursor) : Option (Chomping × Option Nat × Cursor) :=
  match c.rest with
  | [] => some (.clip, none, c)
  | x :: cs =>
    match chomping? x with
    | some chomping =>
      match cs with
      | y :: _ =>
        if isAsciiDigit y then
          if y = '0' then none else some (chomping, some (y.toNat - 48), c.advance 2)
        else some (chomping, none, c.advance 1)
      | [] => some (chomping, none, c.advance 1)
    | none =>
      if isAsciiDigit x then
        if x = '0' then none
        else match cs.head?.bind chomping? with
          | some chomping => some (chomping, some (x.toNat - 48), c.advance 2)
          | none => some (.clip, some (x.toNat - 48), c.advance 1)
      else some (.clip, none, c)

/-- Goes over the indentation and the empty lines before a line of a block. The
indentation is looked for if it is not known, up to the largest one met. -/
def blockBreaks (indent? : Option Nat) : Nat → Nat → List Char → Cursor →
    Option (List Char × Nat × Cursor)
  | 0, _, _, _ => none
  | steps + 1, deepest, breaks, c =>
    let spaces := (c.rest.takeWhile (· = ' ')).length
    let here := c.advance (match indent? with
      | none => spaces
      | some indent => min spaces (indent - c.column))
    let deepest := max deepest here.column
    match here.rest with
    | [] => some (breaks, deepest, here)
    | x :: _ =>
      if x = '\t' && (match indent? with | none => true | some indent => here.column < indent) then
        none
      else if isBreak x then
        blockBreaks indent? steps deepest (breaks ++ [breakText x]) here.skipLine
      else some (breaks, deepest, here)

/-- Reads on in a block, at the start of a line. `lastBreak` is the line break
before, `breaks` those of the empty lines after it, and `wasBlank` says whether
the line before began with a blank. In a folded block a line break between two
lines that begin with no blank becomes a blank, or goes away before empty lines. -/
def blockLines (folded : Bool) (indent : Nat) :
    Nat → Bool → List Char → List Char → Cursor →
    Option (List Char × List Char × List Char × Cursor)
  | 0, _, _, _, _ => none
  | steps + 1, wasBlank, lastBreak, breaks, c =>
    if c.column ≠ indent || c.rest.isEmpty then some ([], lastBreak, breaks, c)
    else do
      let isBlank := (c.rest.head?.map isSpace).getD false
      let joint :=
        if folded && !wasBlank && !isBlank && lastBreak == ['\n'] then
          if breaks.isEmpty then [' '] else []
        else lastBreak
      let line := c.rest.takeWhile (!isBreak ·)
      let ending := c.advance line.length
      let nextBreak := (ending.rest.head?.map breakText).toList
      let next := ending.skipLine
      let (nextBreaks, _, start) ← blockBreaks (some indent) (next.rest.length + 1) 0 [] next
      let (text, tail) ← blockLines folded indent steps isBlank nextBreak nextBreaks start
      pure (joint ++ breaks ++ line ++ text, tail)

/-- A text in a block, below the indentation `outer`. -/
def blockText (folded : Bool) (outer : Int) (c : Cursor) : Option (List Char × Cursor) := do
  let (chomping, increment?, c) ← blockHeader (c.advance 1)
  let c := c.skipWhile isSpace
  let c := if c.rest.head? == some '#' then c.toLineEnd else c
  if !atLineEnd c.rest then none
  let c := c.skipLine
  let indent? := increment?.map fun n => (max outer 0).toNat + n
  let (breaks, deepest, c) ← blockBreaks indent? (c.rest.length + 1) 0 [] c
  let indent := indent?.getD (max (max deepest (outer + 1).toNat) 1)
  let (text, lastBreak, breaks, c) ←
    blockLines folded indent (c.rest.length + 1) false [] breaks c
  pure (match chomping with
    | .strip => (text, c)
    | .clip => (text ++ lastBreak, c)
    | .keep => (text ++ lastBreak ++ breaks, c))

end Pseudocode.Yaml
