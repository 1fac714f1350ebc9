/-
# The nodes of a YAML document

A document is a tree of scalars, sequences and mappings. A node can have a tag,
which says what it is, and a name, by which aliases further on refer to it. An
alias holds the node it refers to, or none if that node is still being read and
so holds the alias itself.

Nodes nest, so their readers take a bound on the number of steps. Each step
takes a token or goes over to another reader, and a character makes few tokens,
so a multiple of the number of the characters is bound enough.

Key definitions: `Node`, `Feed`, `node`, `document?`.
-/
import Pseudocode.Yaml.Scan

namespace Pseudocode.Yaml

/-- A node. -/
inductive Node where
  | scalar (text : String) (isPlain : Bool) (tag? : Option String)
  | sequence (items : List Node)
  | mapping (pairs : List (Node × Node))
  | alias (name : String) (target? : Option Node)
deriving Repr, Inhabited

/-- A node that is left out. -/
def Node.empty (tag? : Option String) : Node := .scalar "" true tag?

/-- The tokens that nodes are read from, and what is known from those before. -/
structure Feed where
  scan : Scan
  /-- The nodes with a name, those named last first; a node that is still being
  read is none. -/
  names : List (String × Option Node) := []
  /-- The handles of tags and what they stand for. -/
  handles : List (String × String) := []
deriving Inhabited

namespace Feed

/-- The next token. -/
def peek (f : Feed) : Option (Token × Feed) := f.scan.peek.map fun (t, s) => (t, { f with scan := s })

/-- Goes over a token. -/
def skip (f : Feed) : Feed := { f with scan := f.scan.skip }

/-- Notes that a node with a name begins. -/
def beginNamed (name? : Option String) (f : Feed) : Feed :=
  match name? with
  | none => f
  | some name => { f with names := (name, none) :: f.names }

/-- Notes that a node with a name is read, unless a node inside it took over its
name. -/
def endNamed (name? : Option String) (n : Node) (f : Feed) : Feed :=
  match name? with
  | none => f
  | some name =>
    match f.names.lookup name with
    | some none => { f with names := (name, some n) :: f.names }
    | _ => f

end Feed

/-- The first part of the tags that the format itself defines. -/
def coreTag : String := "tag:yaml.org,2002:"

/-- A tag in short form. -/
def shortTag (tag : String) : String :=
  if coreTag.toList.isPrefixOf tag.toList then
    "!!" ++ String.ofList (tag.toList.drop coreTag.length)
  else tag

/-- What a tag token stands for, or nothing if its handle is unknown. A single
exclamation mark says nothing. -/
def Feed.tagOf (handle suffix : String) (f : Feed) : Option (Option String) :=
  if handle.isEmpty then some (if suffix = "!" then none else some (shortTag suffix))
  else (f.handles.lookup handle).map fun lead => some (shortTag (lead ++ suffix))

/-- The name and the tag in front of a node, in either order, and whether there is
one of them. -/
def properties (f : Feed) : Option (Option String × Option String × Bool × Feed) := do
  match ← f.peek with
  | (.anchor name, f) =>
    match ← f.skip.peek with
    | (.tag handle suffix, f) => pure (some name, ← f.tagOf handle suffix, true, f.skip)
    | (_, f) => pure (some name, none, true, f)
  | (.tag handle suffix, f) =>
    let tag? ← f.tagOf handle suffix
    match ← f.skip.peek with
    | (.anchor name, f) => pure (some name, tag?, true, f.skip)
    | (_, f) => pure (none, tag?, true, f)
  | (_, f) => pure (none, none, false, f)

mutual

/-- A node. In a block it may be a block itself; as part of a mapping it may be a
sequence whose entries are not indented. -/
def node (inBlock unindented : Bool) : Nat → Feed → Option (Node × Feed)
  | 0, _ => none
  | steps + 1, f => do
    match ← f.peek with
    | (.alias name, f) => pure (.alias name (← f.names.lookup name), f.skip)
    | (_, f) =>
      let (name?, tag?, present, f) ← properties f
      let (n, f) ← content inBlock unindented tag? present steps (f.beginNamed name?)
      pure (n, f.endNamed name? n)

/-- What comes after the name and the tag of a node. -/
def content (inBlock unindented : Bool) (tag? : Option String) (present : Bool) :
    Nat → Feed → Option (Node × Feed)
  | 0, _ => none
  | steps + 1, f => do
    let (t, f) ← f.peek
    let nothing := if present then some (Node.empty tag?, f) else none
    match t with
    | .scalar text isPlain => pure (.scalar text isPlain tag?, f.skip)
    | .flowSequence => (flowItems true steps f.skip).map fun (ns, f) => (.sequence ns, f)
    | .flowMapping => (flowPairs true steps f.skip).map fun (ps, f) => (.mapping ps, f)
    | .blockEntry =>
      if unindented then (unindentedItems steps f).map fun (ns, f) => (.sequence ns, f)
      else nothing
    | .blockSequence =>
      if inBlock then (blockItems steps f.skip).map fun (ns, f) => (.sequence ns, f) else nothing
    | .blockMapping =>
      if inBlock then (blockPairs steps f.skip).map fun (ps, f) => (.mapping ps, f) else nothing
    | _ => nothing

/-- A node, or an empty one before one of the tokens given. -/
def nodeBefore (inBlock unindented : Bool) (stops : List Token) : Nat → Feed → Option (Node × Feed)
  | 0, _ => none
  | steps + 1, f => do
    let (t, f) ← f.peek
    if stops.contains t then pure (.empty none, f) else node inBlock unindented steps f

/-- The value of a key, if there is one. -/
def valueOf (inBlock : Bool) (stops : List Token) : Nat → Feed → Option (Node × Feed)
  | 0, _ => none
  | steps + 1, f => do
    match ← f.peek with
    | (.value, f) => nodeBefore inBlock inBlock stops steps f.skip
    | (_, f) => pure (.empty none, f)

/-- The items of an indented sequence. -/
def blockItems : Nat → Feed → Option (List Node × Feed)
  | 0, _ => none
  | steps + 1, f => do
    match ← f.peek with
    | (.blockEntry, f) =>
      let (n, f) ← nodeBefore true false [.blockEntry, .blockEnd] steps f.skip
      let (ns, f) ← blockItems steps f
      pure (n :: ns, f)
    | (.blockEnd, f) => pure ([], f.skip)
    | _ => none

/-- The items of a sequence that is not indented. -/
def unindentedItems : Nat → Feed → Option (List Node × Feed)
  | 0, _ => none
  | steps + 1, f => do
    match ← f.peek with
    | (.blockEntry, f) =>
      let (n, f) ← nodeBefore true false [.blockEntry, .key, .value, .blockEnd] steps f.skip
      let (ns, f) ← unindentedItems steps f
      pure (n :: ns, f)
    | (_, f) => pure ([], f)

/-- The keys and values of an indented mapping. -/
def blockPairs : Nat → Feed → Option (List (Node × Node) × Feed)
  | 0, _ => none
  | steps + 1, f => do
    match ← f.peek with
    | (.key, f) =>
      let stops := [Token.key, .value, .blockEnd]
      let (k, f) ← nodeBefore true true stops steps f.skip
      let (v, f) ← valueOf true stops steps f
      let (ps, f) ← blockPairs steps f
      pure ((k, v) :: ps, f)
    | (.blockEnd, f) => pure ([], f.skip)
    | _ => none

/-- The items of a sequence in brackets. -/
def flowItems (isFirst : Bool) : Nat → Feed → Option (List Node × Feed)
  | 0, _ => none
  | steps + 1, f => do
    let (t, f) ← f.peek
    if t = .flowSequenceEnd then return ([], f.skip)
    if !isFirst && t ≠ .flowEntry then none
    match ← (if isFirst then f else f.skip).peek with
    | (.flowSequenceEnd, f) => pure ([], f.skip)
    | (.key, f) =>
      let (p, f) ← flowPair steps f.skip
      let (ns, f) ← flowItems false steps f
      pure (.mapping [p] :: ns, f)
    | (_, f) =>
      let (n, f) ← node false false steps f
      let (ns, f) ← flowItems false steps f
      pure (n :: ns, f)

/-- A key and its value as an item of a sequence. The token where the key is
missing is lost. -/
def flowPair : Nat → Feed → Option ((Node × Node) × Feed)
  | 0, _ => none
  | steps + 1, f => do
    let (t, f) ← f.peek
    let isMissing := [Token.value, .flowEntry, .flowSequenceEnd].contains t
    let (k, f) ← if isMissing then some (.empty none, f.skip) else node false false steps f
    let (v, f) ← valueOf false [.flowEntry, .flowSequenceEnd] steps f
    pure ((k, v), f)

/-- The keys and values of a mapping in brackets. -/
def flowPairs (isFirst : Bool) : Nat → Feed → Option (List (Node × Node) × Feed)
  | 0, _ => none
  | steps + 1, f => do
    let stops := [Token.flowEntry, .flowMappingEnd]
    let (t, f) ← f.peek
    if t = .flowMappingEnd then return ([], f.skip)
    if !isFirst && t ≠ .flowEntry then none
    match ← (if isFirst then f else f.skip).peek with
    | (.flowMappingEnd, f) => pure ([], f.skip)
    | (.key, f) =>
      let (k, f) ← nodeBefore false false (.value :: stops) steps f.skip
      let (v, f) ← valueOf false stops steps f
      let (ps, f) ← flowPairs false steps f
      pure ((k, v) :: ps, f)
    | (_, f) =>
      let (k, f) ← node false false steps f
      let (ps, f) ← flowPairs false steps f
      pure ((k, .empty none) :: ps, f)

end

/-! ### Documents -/

/-- The lines about a document in front of it. The version may be given once, and
`versioned` says that it is; each handle may be given once. -/
def directives : Nat → Bool → Feed → Option Feed
  | 0, _, _ => none
  | steps + 1, versioned, f => do
    match ← f.peek with
    | (.version supported, f) =>
      if versioned || !supported then none else directives steps true f.skip
    | (.tagHandle handle lead, f) =>
      if f.handles.any (·.1 == handle) then none
      else directives steps versioned { f.skip with handles := (handle, lead) :: f.handles }
    | (_, f) => pure f

/-- The handles that are known without being given. -/
def Feed.withCoreHandles (f : Feed) : Feed :=
  { f with handles := f.handles ++ [("!", "!"), ("!!", coreTag)] }

/-- A document that begins with a mark of its own, behind that mark. -/
def markedDocument (steps : Nat) (f : Feed) : Option (Node × Feed) := do
  match ← f.peek with
  | (.version _, f) => pure (.empty none, f)
  | (.tagHandle _ _, f) => pure (.empty none, f)
  | (_, f) => nodeBefore true false [.documentStart, .documentEnd, .streamEnd] steps f

/-- A document, up to the token behind it. -/
def document (steps : Nat) (f : Feed) : Option Node := do
  let (t, f) ← f.peek
  let isMarked := match t with
    | .version _ => true
    | .tagHandle _ _ => true
    | t => t = .documentStart
  let f := (← directives steps false f).withCoreHandles
  let (n, f) ← if !isMarked then node true false steps f
    else match ← f.peek with
      | (.documentStart, f) => markedDocument steps f.skip
      | _ => none
  let _ ← f.peek
  pure n

/-- The first document of a text: nothing if the text is not well formed, and no
node if it holds no document. -/
@[irreducible] def document? (s : String) : Option (Option Node) := do
  match ← ({ scan := .ofText s } : Feed).peek with
  | (.streamEnd, _) => pure none
  | (_, f) => (document (16 * (s.length + 4)) f).map some

end Pseudocode.Yaml
