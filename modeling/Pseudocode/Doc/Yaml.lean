/-
# Documents as YAML

Records are written in block style, two blanks for each level. A text is
written plain where that reads back as the text, and otherwise quoted; a text
with a newline is a literal block where it can be. Lines are never folded.

Which forms are open to a text is a matter of its characters alone: `Shape`
collects what it holds, and the choice of a form is a choice by its fields.

Key definitions: `Shape`, `scalar`, `Doc.toYaml`.
-/
import Pseudocode.Doc
import Pseudocode.Doc.Json
import Pseudocode.Yaml.Implicit

namespace Pseudocode.Yaml

/-! ### What a text holds -/

/-- A character that can be written as it is. Those above U+FFFF cannot. -/
def isPlainChar (c : Char) : Bool :=
  c == '\n' || (' ' ≤ c && c ≤ '~') || (0xA0 ≤ c.toNat && c.toNat ≤ 0xFFFD && c ≠ '\ufeff')

/-- What a text holds that rules out some way of writing it. -/
structure Shape where
  /-- A character that is written as an escape. -/
  special : Bool
  tab : Bool
  /-- A line break anywhere. -/
  breaks : Bool
  /-- A space before a line break. -/
  spaceBreak : Bool
  /-- A space after a line break. -/
  breakSpace : Bool
  startsWithSpace : Bool
  endsWithSpace : Bool
  /-- A sign that YAML gives a meaning. -/
  indicator : Bool
deriving Repr

/-- Whether a pair of neighbours satisfies both tests in order. -/
def hasPair (p q : Char → Bool) : List Char → Bool
  | c :: d :: cs => (p c && q d) || hasPair p q (d :: cs)
  | _ => false

/-- A space or a tab. -/
def isYamlBlank (c : Char) : Bool := c == ' ' || c == '\t'

/-- Whether a text starts with a sign that YAML gives a meaning there. -/
def startsWithIndicator : List Char → Bool
  | '-' :: '-' :: '-' :: _ => true
  | '.' :: '.' :: '.' :: _ => true
  | c :: cs =>
    if ['#', ',', '[', ']', '\x7b', '\x7d', '&', '*', '!', '|', '>', '\'', '"', '%', '@',
        '\x60'].contains c then true
    else if c = '-' || c = '?' || c = ':' then
      match cs with
      | [] => true
      | d :: _ => isYamlBlank d
    else false
  | [] => false

/-- Whether a text has a colon before a blank or its end, or a number sign after
a blank. -/
def hasInnerIndicator (cs : List Char) : Bool :=
  hasPair (· == ':') isYamlBlank cs || cs.getLast? == some ':'
    || hasPair (fun c => isYamlBlank c || isBreak c) (· == '#') cs

/-- What a text holds. -/
def shapeOf (cs : List Char) : Shape :=
  { special := cs.any fun c => !isPlainChar c && c ≠ '\t'
    tab := cs.contains '\t'
    breaks := cs.any isBreak
    spaceBreak := hasPair (· == ' ') isBreak cs
    breakSpace := hasPair isBreak (· == ' ') cs
    startsWithSpace := cs.head? == some ' '
    endsWithSpace := cs.getLast? == some ' '
    indicator := startsWithIndicator cs || hasInnerIndicator cs }

namespace Shape

/-- Whether the text may stand without quotes. -/
def plain (s : Shape) : Bool :=
  !(s.special || s.tab || s.breaks || s.startsWithSpace || s.endsWithSpace || s.indicator)

/-- Whether the text may stand between single quotes. -/
def singleQuoted (s : Shape) : Bool :=
  !(s.special || s.tab || s.spaceBreak || s.breakSpace)

/-- Whether the text may be a literal block. -/
def block (s : Shape) : Bool :=
  !(s.special || s.spaceBreak || s.endsWithSpace)

end Shape

/-! ### The written forms -/

/-- The upper-case hexadecimal digits of `n`. -/
def upperHex (width n : Nat) : List Char := (hexDigits width n).map Char.toUpper

/-- A character between double quotes. -/
def escapedChar (c : Char) : List Char :=
  match c with
  | '\x00' => ['\\', '0']
  | '\x07' => ['\\', 'a']
  | '\x08' => ['\\', 'b']
  | '\t' => ['\\', 't']
  | '\n' => ['\\', 'n']
  | '\x0b' => ['\\', 'v']
  | '\x0c' => ['\\', 'f']
  | '\r' => ['\\', 'r']
  | '\x1b' => ['\\', 'e']
  | '"' => ['\\', '"']
  | '\\' => ['\\', '\\']
  | '\u0085' => ['\\', 'N']
  | '\u2028' => ['\\', 'L']
  | '\u2029' => ['\\', 'P']
  | c =>
    if isPlainChar c then [c]
    else if c.toNat ≤ 0xFF then '\\' :: 'x' :: upperHex 2 c.toNat
    else if c.toNat ≤ 0xFFFF then '\\' :: 'u' :: upperHex 4 c.toNat
    else '\\' :: 'U' :: upperHex 8 c.toNat

/-- The lines of a text with `indent` blanks in front of each that is not empty;
`fresh` says that a line has just begun. -/
def indentLines (indent : Nat) : Bool → List Char → List Char
  | _, [] => []
  | fresh, c :: cs =>
    if isBreak c then c :: indentLines indent true cs
    else if fresh then List.replicate indent ' ' ++ c :: indentLines indent false cs
    else c :: indentLines indent false cs

/-- A text between double quotes. -/
def doubleQuoted (cs : List Char) : List Char :=
  '"' :: cs.flatMap escapedChar ++ ['"']

/-- A text between single quotes. -/
def singleQuoted (indent : Nat) (cs : List Char) : List Char :=
  let doubled := cs.flatMap fun c => if c = '\'' then ['\'', '\''] else [c]
  '\'' :: indentLines indent false doubled ++ ['\'']

/-- How the end of a literal block is kept: stripped, kept as one newline, or
kept with all its newlines. -/
def blockEnd (cs : List Char) : List Char :=
  match cs.reverse with
  | [] => ['-']
  | [c] => if isBreak c then ['+'] else ['-']
  | c :: d :: _ => if !isBreak c then ['-'] else if isBreak d then ['+'] else []

/-- A text as a literal block whose lines are indented by `indent`. A line break
at the front of the text ends the line of the header. -/
def literalBlock (indent : Nat) (cs : List Char) : List Char :=
  let hint := match cs with
    | c :: _ => if c = ' ' || isBreak c then ['2'] else []
    | [] => []
  let opening := match cs with
    | c :: _ => if isBreak c then [] else ['\n']
    | [] => []
  '|' :: hint ++ blockEnd cs ++ opening ++ indentLines indent true cs

/-- A text as a scalar; lines after its first are indented by `indent`. -/
def scalar (indent : Nat) (s : String) : List Char :=
  let cs := s.toList
  let shape := shapeOf cs
  if cs.contains '\n' then
    if shape.block then literalBlock indent cs else doubleQuoted cs
  else if !readsAsText s then doubleQuoted cs
  else if shape.plain then cs
  else if shape.singleQuoted then singleQuoted indent cs
  else doubleQuoted cs

/-- A scalar and the newline after it, unless it ends in one already. -/
def scalarLine (indent : Nat) (s : String) : String :=
  let cs := scalar indent s
  String.ofList (if (cs.getLast?.map isBreak).getD false then cs else cs ++ ['\n'])

end Pseudocode.Yaml

namespace Pseudocode.Doc

open Yaml

mutual

/-- What follows a key, up to and with the newline. -/
def yamlValue (level : Nat) : Doc → String
  | null => " \x7b\x7d\n"
  | text s => " " ++ scalarLine (2 * level + 2) s
  | record [] => " \x7b\x7d\n"
  | record (field :: fields) =>
    "\n" ++ yamlField (level + 1) field ++ yamlFields (level + 1) fields

/-- The fields of a record, each from a line of its own on. -/
def yamlFields (level : Nat) : List (String × Doc) → String
  | [] => ""
  | field :: fields => yamlField level field ++ yamlFields level fields

/-- One field. -/
def yamlField (level : Nat) : String × Doc → String
  | (key, value) =>
    indentation level ++ String.ofList (scalar 0 key) ++ ":" ++ yamlValue level value

end

/-- The error of writing YAML to a sink that fails. -/
def yamlWriteError (cause : String) : String := "yaml: write error: " ++ cause

/-- A document as YAML. -/
def toYaml : Doc → String
  | null => "\x7b\x7d\n"
  | text s => scalarLine 2 s
  | record [] => "\x7b\x7d\n"
  | record fields => yamlFields 0 fields

end Pseudocode.Doc
