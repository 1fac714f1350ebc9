/-
# Decoding YAML

A mapping is decoded into a record field by field. Keys are compared exactly, and each
may be there once. A null stores nothing. Any other scalar is good for a text, and for
a record that has a form as a text; a truth value is written as such or as one of the
older words, and a length of time as a text. A mapping can take in the keys of others
under `<<`; its own keys go first.

Key definitions: `scalarValue?`, `fields?`, `Node.decode?`, `decode`.
-/
import Pseudocode.Decoder
import Pseudocode.Text.Base64
import Pseudocode.Yaml.Node

namespace Pseudocode.Yaml

/-! ### Scalars -/

/-- The tag of a kind of scalars. -/
def ScalarKind.tag : ScalarKind → String
  | null => "!!null"
  | flag _ => "!!bool"
  | integer _ => "!!int"
  | float => "!!float"
  | timestamp => "!!timestamp"
  | text => "!!str"

/-- The tags that say how a text is to be read. -/
def readingTags : List String := ["!!bool", "!!int", "!!float", "!!null", "!!timestamp"]

/-- What a scalar is, and its text; nothing if its tag says something else than
its text. A text of bytes is written in base64. With a tag that says nothing about
the text, it is taken as it is. -/
def scalarValue? (text : String) (isPlain : Bool) (tag? : Option String) :
    Option (ScalarKind × String) :=
  match tag? with
  | none => some (if isPlain && text ≠ "<<" then plainKind true text else .text, text)
  | some tag =>
    let kind := plainKind (tag = "!!timestamp") text
    if tag = "!!binary" then (base64Bytes? text).map fun bytes => (.text, textOfBytes bytes)
    else if !readingTags.contains tag then some (.text, text)
    else if tag = kind.tag || (tag = "!!float" && kind = .integer false) then some (kind, text)
    else none

/-- The truth value of a text that is a word for one in older versions. -/
def oldFlag? (s : String) : Option Bool :=
  if oldTrueWords.contains s then some true
  else if oldFalseWords.contains s then some false
  else none

/-- What a scalar that is not null is good for. -/
def scalarReading (text : String) (kind : ScalarKind) : Reading :=
  { text? := some text
    flag? := match kind with
      | .flag b => some b
      | .text => oldFlag? text
      | _ => none
    span? := if kind = .text then (Duration.ofText text).toOption else none
    written? := some text }

/-! ### Mappings -/

/-- Whether a key takes in the keys of other mappings. -/
def Node.isMerge : Node → Bool
  | .scalar "<<" isPlain tag? => (isPlain && tag?.isNone) || tag? == some "!!merge"
  | _ => false

/-- The text of a key: nothing if it is no text, and none if it is null. -/
def Node.keyText? : Nat → Node → Option (Option String)
  | 0, _ => none
  | _ + 1, .scalar text isPlain tag? =>
    (scalarValue? text isPlain tag?).map fun (kind, text) =>
      if kind = .null then none else some text
  | steps + 1, .alias _ (some target) => target.keyText? steps
  | _, _ => none

/-- Whether two keys are written the same way. -/
def Node.sameKey : Node → Node → Bool
  | .scalar a _ _, .scalar b _ _ => a == b
  | .alias a _, .alias b _ => a == b
  | .sequence _, .sequence _ => true
  | .mapping _, .mapping _ => true
  | _, _ => false

/-- Whether no two keys are written the same way. -/
def distinctKeys : List (Node × Node) → Bool
  | [] => true
  | (k, _) :: rest => !(rest.any fun (l, _) => k.sameKey l) && distinctKeys rest

/-- The node that an alias stands for in the end. -/
def Node.target? : Nat → Node → Option Node
  | 0, _ => none
  | steps + 1, .alias _ target? => target?.bind (Node.target? steps)
  | _ + 1, n => some n

/-- The keys and values of a mapping that take no others in. -/
def ownFields? (steps : Nat) (pairs : List (Node × Node)) : Option (List (String × Node)) := do
  let fields ← (pairs.filter fun (k, _) => !k.isMerge).mapM fun (k, v) =>
    (k.keyText? steps).map fun text? => text?.map fun text => (text, v)
  pure (fields.filterMap id)

mutual

/-- The keys and values that a mapping gives to one that has the keys `seen`. -/
def mergedFields? : Nat → List String → Node → Option (List (String × Node))
  | 0, _, _ => none
  | steps + 1, seen, n =>
    match n.target? steps with
    | some (.mapping pairs) => do
      if !distinctKeys pairs then none
      let own ← ownFields? steps pairs
      let new := own.foldl (fun kept (k, v) =>
        if seen.contains k || kept.any (·.1 == k) then kept else kept ++ [(k, v)]) []
      match pairs.find? fun (k, _) => k.isMerge with
      | none => pure new
      | some (_, source) =>
        let more ← takenIn? steps (seen ++ new.map (·.1)) source
        pure (new ++ more)
    | _ => none

/-- The keys and values under `<<` for a mapping that has the keys `seen`: those
of a mapping, or of several in turn. -/
def takenIn? : Nat → List String → Node → Option (List (String × Node))
  | 0, _, _ => none
  | steps + 1, seen, .sequence items => allTakenIn? steps seen items
  | steps + 1, seen, n => mergedFields? steps seen n

/-- The keys and values of several mappings in turn. -/
def allTakenIn? : Nat → List String → List Node → Option (List (String × Node))
  | 0, _, _ => none
  | _ + 1, _, [] => some []
  | steps + 1, seen, n :: ns => do
    let fields ← mergedFields? steps seen n
    let more ← allTakenIn? steps (seen ++ fields.map (·.1)) ns
    pure (fields ++ more)

end

/-- The keys and values of a mapping, with those that it takes in. No key may be
there twice. -/
def fields? (steps : Nat) (pairs : List (Node × Node)) : Option (List (String × Node)) := do
  let own ← ownFields? steps pairs
  let names := own.map (·.1)
  if !distinctKeys pairs || !names.Nodup then none
  match pairs.find? fun (k, _) => k.isMerge with
  | none => pure own
  | some (_, source) =>
    let more ← takenIn? steps names source
    pure (own ++ more)

/-! ### Records -/

/-- What decoding a scalar into a value of a shape stores. A null stores nothing. -/
def scalarWrites? (shape : DataShape) (text : String) (isPlain : Bool) (tag? : Option String) :
    Option (List Write) := do
  let (kind, text) ← scalarValue? text isPlain tag?
  if kind = .null then pure []
  else (shape.scalar? (scalarReading text kind)).map fun x => [{ value := x }]

/-- What decoding a node into a value of a shape stores. -/
def Node.decode? (strict : Bool) (steps : Nat) : DataShape → Node → Option (List Write)
  | .record read? names field, n => do
    match ← n.target? steps with
    | .scalar text isPlain tag? => scalarWrites? (.record read? names field) text isPlain tag?
    | .mapping pairs =>
      let parts ← (← fields? steps pairs).mapM fun (name, v) =>
        if names.contains name then
          (decode? strict steps (field name) v).map (List.map (Write.under name))
        else if strict then none
        else some []
      pure parts.flatten
    | _ => none
  | shape, n => do
    match ← n.target? steps with
    | .scalar text isPlain tag? => scalarWrites? shape text isPlain tag?
    | _ => none

/-- Decodes the first document of a text into a value of a shape. -/
def decode (strict : Bool) (shape : DataShape) (text : String) : Except YamlFault (List Write) :=
  match document? text with
  | none => .error .refused
  | some none => .error .endOfInput
  | some (some n) =>
    match n.decode? strict (text.length + 2) shape with
    | none => .error .refused
    | some writes => .ok writes

end Pseudocode.Yaml
