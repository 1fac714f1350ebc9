/-
# Decoding TOML

A table is decoded into a record field by field. A key is for the field of that very
name, else for the first one that has the name in another letter case; without one,
what is under the key is left alone. Texts and truth values are written as such, and a
record that has a form as a text as any scalar, which stands for its text. A value of
another type makes decoding fail.

Key definitions: `fieldNamed?`, `Value.reading`, `Node.decode?`, `Node.reaches`, `decode?`.
-/
import Pseudocode.Decoder
import Pseudocode.Text.Fold
import Pseudocode.Toml.Document

namespace Pseudocode.Toml

/-- The field that a key is for. -/
def fieldNamed? (names : List String) (key : String) : Option String :=
  (names.find? (· = key)).or (names.find? (sameLetters key ·))

/-- What a value is good for. -/
def Value.reading : Value → Reading
  | text s => { text? := some s, written? := some s }
  | integer n => { written? := some (toString n) }
  | flag b => { flag? := some b, written? := some (toString b) }
  | _ => {}

/-- What decoding a node into a value of a shape stores. -/
def Node.decode? : DataShape → Node → Option (List Write)
  | .record none names field, .table fields => do
    let parts ← (fields.filterMap fun (key, node) => (fieldNamed? names key).map (·, node)).mapM
      fun (name, node) => (decode? (field name) node).map (List.map (Write.under name))
    pure parts.flatten
  | shape, .value v => (shape.scalar? v.reading).map fun x => [{ value := x }]
  | _, _ => none

/-- Whether a dotted key leads to something that is decoded. -/
def Node.reaches : DataShape → Node → Key → Bool
  | .record none names field, .table fields, key :: path =>
    match fieldNamed? names key, fields.lookup key with
    | some name, some node => path.isEmpty || reaches (field name) node path
    | _, _ => false
  | _, _, _ => false

/-- Decodes a text into a value of a shape. -/
def decode? (shape : DataShape) (text : String) : Option TomlResult := do
  let d ← Document.ofText? text
  let root := Node.table d.fields
  let writes ← root.decode? shape
  pure ⟨writes, (d.keys.filter (!root.reaches shape ·)).map keyText⟩

end Pseudocode.Toml
