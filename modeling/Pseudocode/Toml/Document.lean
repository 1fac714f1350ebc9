/-
# The tables of a TOML document

Statements build up nested tables. A key may be defined once. A table that is
there only because keys go through it is implied, and may still be defined by
a header of its own. Beside the tables the document keeps its keys in the order
of the text: headers, assignments, and the fields of tables on one line; the
front parts of a dotted key are no keys of their own.

Key definitions: `Node`, `Draft`, `Draft.assign`, `Document`, `Document.ofText?`.
-/
import Pseudocode.Toml.Reader

namespace Pseudocode.Toml

/-- What a name in a table stands for. -/
inductive Node where
  | value (v : Value)
  | table (fields : List (String × Node))
  /-- An array of tables: the row that is being written, and those before it. -/
  | rows (current : List (String × Node)) (earlier : List (List (String × Node)))
deriving Repr, Inhabited

/-- The names of a table and what they stand for. -/
abbrev Fields := List (String × Node)

/-- Gives a name in a table a new meaning. -/
def putField (name : String) (node : Node) : Fields → Fields
  | [] => [(name, node)]
  | (n, old) :: rest => if n = name then (n, node) :: rest else (n, old) :: putField name node rest

/-- Gives a dotted name in a table a new meaning, with the tables on the way. -/
def putPath : Key → Node → Fields → Fields
  | [], _, fields => fields
  | [name], node, fields => putField name node fields
  | name :: path, node, fields =>
    let inner := match fields.lookup name with
      | some (.table inner) => inner
      | _ => []
    putField name (.table (putPath path node inner)) fields

mutual

/-- What a name with this value stands for. -/
def Value.node (v : Value) : Node :=
  match v with
  | .table fields => .table (fieldNodes fields [])
  | v => .value v
termination_by sizeOf v

/-- The names of a table on one line, after those that are there already. -/
def fieldNodes (fields : List (Key × Value)) (above : Fields) : Fields :=
  match fields with
  | [] => above
  | (k, v) :: rest => fieldNodes rest (putPath k v.node above)
termination_by sizeOf fields

end

/-- Changes the table at a path; in an array of tables the path goes through the
current row. -/
def changeAt (change : Fields → Option Fields) : Key → Fields → Option Fields
  | [], fields => change fields
  | name :: path, fields =>
    match fields.lookup name with
    | some (.table inner) => do
      let inner ← changeAt change path inner
      pure (putField name (.table inner) fields)
    | some (.rows current earlier) => do
      let current ← changeAt change path current
      pure (putField name (.rows current earlier) fields)
    | _ => none

/-- A document in the making. -/
structure Draft where
  fields : Fields := []
  /-- The tables that are only implied so far. -/
  implied : List Key := []
  /-- The keys whose value is an array. -/
  arrays : List Key := []
  /-- The keys of the document, the last one first. -/
  keys : List Key := []
deriving Inhabited

namespace Draft

/-- Marks a path as a table that is only implied. -/
def imply (path : Key) (d : Draft) : Draft :=
  { d with implied := path :: d.implied.erase path }

/-- Notes whether the value of a key is an array. -/
def noteArray (path : Key) (isArray : Bool) (d : Draft) : Draft :=
  { d with arrays := if isArray then path :: d.arrays.erase path else d.arrays.erase path }

/-- The path whose kind an assignment settles: its own, or that of the table
around it if the last name is empty. -/
def kindPath (path : Key) : Key :=
  if path.getLast? = some "" && 1 < path.length then path.dropLast else path

/-- Notes a key of the document. -/
def noteKey (path : Key) (d : Draft) : Draft := { d with keys := path :: d.keys }

/-- Whether a name is free in the table at a path. -/
def isFree (path : Key) (name : String) (d : Draft) : Bool :=
  (changeAt (fun fields => if (fields.lookup name).isNone then some fields else none)
    path d.fields).isSome

/-- Whether a name in the table at a path stands for an array. -/
def isArrayAt (path : Key) (name : String) (d : Draft) : Bool :=
  (changeAt (fun fields => match fields.lookup name with
    | some (.value (.array _)) => some fields
    | _ => none) path d.fields).isSome

/-- Defines a name in the table at a path. A name that is there already may be
defined if it is an implied table, which is kept and is implied no longer, or an
array, which gives way. -/
def define (path : Key) (name : String) (node : Node) (d : Draft) : Option Draft := do
  let full := path ++ [name]
  let fields ← changeAt (fun fields =>
    if (fields.lookup name).isNone || d.arrays.contains full then
      some (putField name node fields)
    else if d.implied.contains full then some fields
    else none) path d.fields
  pure { d with fields, implied := if d.isFree path name then d.implied else d.implied.erase full }

/-- Makes the tables along `rest`, below the path `done`, implied where they are
not there yet. -/
def makePath : Key → Key → Draft → Option Draft
  | _, [], d => some d
  | done, name :: rest, d => do
    let fields ← changeAt (fun fields =>
      match fields.lookup name with
      | none => some (putField name (.table []) fields)
      | some (.value _) => none
      | some _ => some fields) done d.fields
    let d := if d.isFree done name then d.imply (done ++ [name]) else d
    makePath (done ++ [name]) rest { d with fields }

/-- Begins the table at a path, or a new row of the array of tables there. -/
def begin (path : Key) (isRow : Bool) (d : Draft) : Option Draft := do
  let above := path.dropLast
  let name := path.getLastD ""
  let d ← makePath [] above d
  if isRow then
    let fields ← changeAt (fun fields =>
      match fields.lookup name with
      | none => some (putField name (.rows [] []) fields)
      | some (.rows current earlier) => some (putField name (.rows [] (current :: earlier)) fields)
      | some _ => none) above d.fields
    pure { d with fields }
  else d.define above name (.table [])

/-- Goes from a path through the front parts of a dotted key, which become
implied tables. Within a table on one line, `onLine`, no array gives way. -/
def through (onLine : Bool) : Key → Key → Draft → Option Draft
  | _, [], d => some d
  | path, name :: rest, d => do
    if onLine && d.isArrayAt path name then none
    let here := path ++ [name]
    let d ← (d.imply here).begin here false
    through onLine here rest d

/-- Whether a value is an array. -/
def isArrayValue : Value → Bool
  | .array _ => true
  | _ => false

mutual

/-- Defines a dotted key below a path, which is a table on one line or not. -/
def assign (onLine : Bool) (path : Key) (k : Key) (v : Value) (d : Draft) : Option Draft := do
  let d ← d.through onLine path k.dropLast
  let above := path ++ k.dropLast
  let name := k.getLastD ""
  let full := above ++ [name]
  let d ← inside full false v (d.noteKey full)
  let d ← d.define above name v.node
  pure (d.noteArray (kindPath full) (isArrayValue v))
termination_by (sizeOf v, 1)

/-- Enters what is inside a value: the fields of tables on one line. -/
def inside (path : Key) (isRow : Bool) (v : Value) (d : Draft) : Option Draft :=
  match v with
  | .table fields => do
    let d ← (d.imply path).begin path isRow
    insideFields path fields d
  | .array vs => insideItems path vs (d.noteArray (kindPath path) true)
  | _ => some d
termination_by (sizeOf v, 0)

/-- Enters what is inside the items of an array. -/
def insideItems (path : Key) (vs : List Value) (d : Draft) : Option Draft :=
  match vs with
  | [] => some d
  | v :: vs => do
    let d ← inside path true v d
    insideItems path vs d
termination_by (sizeOf vs, 0)

/-- Defines the fields of a table on one line. -/
def insideFields (path : Key) (fields : List (Key × Value)) (d : Draft) : Option Draft :=
  match fields with
  | [] => some d
  | (k, v) :: rest => do
    let d ← assign true path k v d
    insideFields path rest d
termination_by (sizeOf fields, 0)

end

/-- Builds up a document from the statements below the table at a path. -/
def build : Key → List Statement → Draft → Option Draft
  | _, [], d => some d
  | _, .header k :: rest, d => do
    let d ← d.begin k false
    build k rest ((d.noteArray k false).noteKey k)
  | _, .rowHeader k :: rest, d => do
    let d ← d.begin k true
    build k rest ((d.noteArray k false).noteKey k)
  | path, .assign k v :: rest, d => do
    let d ← d.assign false path k v
    build path rest d

end Draft

/-- The tables of a document, and its keys in the order of the text. -/
structure Document where
  fields : Fields
  keys : List Key
deriving Inhabited

/-- The document that a text is, if it is one. -/
def Document.ofText? (s : String) : Option Document := do
  let statements ← read? s
  let d ← Draft.build [] statements {}
  pure ⟨d.fields, d.keys.reverse⟩

end Pseudocode.Toml
