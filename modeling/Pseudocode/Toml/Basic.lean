/-
# TOML documents

The text of a TOML document is a list of statements: table headers and
assignments of values to dotted keys. Of the values, only texts, whole numbers
and truth values are told apart further; of the rest the kind is enough.

Key definitions: `Key`, `Value`, `Statement`, `keyText`.
-/
import Pseudocode.Text.Quoted

namespace Pseudocode.Toml

/-- A dotted key. -/
abbrev Key := List String

/-- A value. -/
inductive Value where
  | text (s : String)
  | integer (n : Int)
  | flag (b : Bool)
  /-- A floating-point number. -/
  | float
  /-- A date, a time of day, or both. -/
  | moment
  | array (items : List Value)
  /-- A table on one line. -/
  | table (fields : List (Key × Value))
deriving Repr, Inhabited

/-- A statement. -/
inductive Statement where
  /-- The header of a table. -/
  | header (key : Key)
  /-- The header of a row in an array of tables. -/
  | rowHeader (key : Key)
  /-- A key and its value. -/
  | assign (key : Key) (value : Value)
deriving Repr, Inhabited

/-- A character of a key without quotes. -/
def isBareChar (c : Char) : Bool :=
  ('a' ≤ c && c ≤ 'z') || ('A' ≤ c && c ≤ 'Z') || ('0' ≤ c && c ≤ '9') || c == '_' || c == '-'

/-- A character of a key in quotes. -/
def keyChar (c : Char) : List Char :=
  match c with
  | '"' => ['\\', '"']
  | '\\' => ['\\', '\\']
  | '\x08' => ['\\', 'b']
  | '\t' => ['\\', 't']
  | '\n' => ['\\', 'n']
  | '\x0c' => ['\\', 'f']
  | '\r' => ['\\', 'r']
  | c => if c < ' ' || c = '\x7f' then '\\' :: 'u' :: hexDigits 4 c.toNat else [c]

/-- One part of a key as text, in quotes where it needs them. -/
def partText (part : String) : String :=
  if !part.isEmpty && part.toList.all isBareChar then part
  else String.ofList ('"' :: part.toList.flatMap keyChar ++ ['"'])

/-- A dotted key as text. -/
def keyText (key : Key) : String := ".".intercalate (key.map partText)

end Pseudocode.Toml
