/-
# Decoders

A decoder reads a text in some format into a value whose type it is told. The type comes
as a shape: texts, truth values and lengths of time, in records of named fields. What
the text has for a field is stored there, and all other fields stay as they are, so
decoding gives a list of writes. A record can have a form as a text of its own.

The program has no decoders of its own. It is given one for TOML and one for YAML.

Key definitions: `DataShape`, `Write`, `Reading`, `DataShape.scalar?`, `Decoders`.
-/
import Pseudocode.Duration

namespace Pseudocode

/-- The type of a value, as far as a decoder has to know it. -/
inductive DataShape where
  | text
  | flag
  /-- A length of time. -/
  | span
  /-- A record with named fields. If it has a form as a text, `read?` reads it. -/
  | record (read? : Option (String → Option Duration)) (names : List String)
      (field : String → DataShape)

/-- A value that is stored in a field. -/
inductive Stored where
  | text (s : String)
  | flag (b : Bool)
  | span (d : Duration)
deriving Repr, DecidableEq, Inhabited

/-- A value, and the names of the fields on the way to where it is stored. -/
structure Write where
  path : List String := []
  value : Stored
deriving Repr, DecidableEq, Inhabited

/-- The same in a field of a record. -/
def Write.under (name : String) (w : Write) : Write := { w with path := name :: w.path }

/-- What a scalar of a document is good for, as far as it is: a text, a truth value,
a length of time, and the text form of a record. -/
structure Reading where
  text? : Option String := none
  flag? : Option Bool := none
  span? : Option Duration := none
  written? : Option String := none
deriving Repr, Inhabited

/-- What a scalar gives a value of a shape, if it is good for that. -/
def DataShape.scalar? (r : Reading) : DataShape → Option Stored
  | text => r.text?.map .text
  | flag => r.flag?.map .flag
  | span => r.span?.map .span
  | record read? _ _ => (read?.bind fun read => r.written?.bind read).map .span

/-- What decoding a TOML text gives: what is stored, and the keys, in the order of the
text, that nothing was decoded for. -/
structure TomlResult where
  writes : List Write
  undecoded : List String
deriving Repr, DecidableEq, Inhabited

/-- Why a YAML text is not decoded. -/
inductive YamlFault where
  /-- There is no document in the text. -/
  | endOfInput
  | refused
deriving Repr, DecidableEq, Inhabited

/-- The decoders that the program is given. -/
structure Decoders where
  toml : DataShape → String → Option TomlResult
  /-- Decodes the first document of a text. If it is to be strict, a key that no field
  is for is a fault. -/
  yaml : (strict : Bool) → DataShape → String → Except YamlFault (List Write)

end Pseudocode
