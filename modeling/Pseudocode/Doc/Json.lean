/-
# Documents as JSON

Two blanks of indentation for each level, one field on each line, and a newline
at the end. Beside what JSON asks for, the characters `<`, `>` and `&` and the
separators U+2028 and U+2029 are written as escapes, so the text can stand
inside a page of markup.

Key definitions: `jsonChar`, `jsonText`, `Doc.toJson`.
-/
import Pseudocode.Doc

namespace Pseudocode

/-- A character inside a JSON string. -/
def jsonChar (c : Char) : List Char :=
  match c with
  | '"' => ['\\', '"']
  | '\\' => ['\\', '\\']
  | '\n' => ['\\', 'n']
  | '\r' => ['\\', 'r']
  | '\t' => ['\\', 't']
  | '\x08' => ['\\', 'b']
  | '\x0c' => ['\\', 'f']
  | c =>
    if c < ' ' || ['<', '>', '&', '\u2028', '\u2029'].contains c then
      '\\' :: 'u' :: hexDigits 4 c.toNat
    else [c]

/-- A text as a JSON string. -/
def jsonText (s : String) : String :=
  String.ofList ('"' :: s.toList.flatMap jsonChar ++ ['"'])

/-- Two blanks for each level. -/
def indentation (level : Nat) : String := String.ofList (List.replicate (2 * level) ' ')

namespace Doc

mutual

/-- A document whose first line is already indented and whose other lines stand
at a level. -/
def jsonAt (level : Nat) : Doc → String
  | null => "null"
  | text s => jsonText s
  | record [] => "\x7b\x7d"
  | record (field :: fields) =>
    "\x7b\n" ++ ",\n".intercalate (jsonField (level + 1) field :: jsonFields (level + 1) fields)
      ++ "\n" ++ indentation level ++ "\x7d"

/-- The fields of a record, without what separates them. -/
def jsonFields (level : Nat) : List (String × Doc) → List String
  | [] => []
  | field :: fields => jsonField level field :: jsonFields level fields

/-- One field. -/
def jsonField (level : Nat) : String × Doc → String
  | (key, value) => indentation level ++ jsonText key ++ ": " ++ jsonAt level value

end

/-- A document as JSON. -/
def toJson (d : Doc) : String := d.jsonAt 0 ++ "\n"

end Doc

end Pseudocode
