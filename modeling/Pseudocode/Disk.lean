/-
# Files

The files that a program meets, as a view: what reading a path gives, whether
a file can be made there, and whether something is found there. One such view is
a directory tree that is given by the names in it.

Key definitions: `FileFault`, `Disk`, `Tree`, `Tree.disk`.
-/
import Pseudocode.Path

namespace Pseudocode

/-- Why a file cannot be read or made. -/
inductive FileFault where
  /-- Nothing is there. -/
  | missing
  /-- A directory is there. -/
  | isDirectory
  /-- The path leads through something that is no directory. -/
  | notDirectory
  /-- The system has another reason. -/
  | other (reason : String)
deriving Repr, DecidableEq, Inhabited

namespace FileFault

/-- The reason as text. -/
def reason : FileFault → String
  | missing => "no such file or directory"
  | isDirectory => "is a directory"
  | notDirectory => "not a directory"
  | other reason => reason

/-- The text of a fault met while reading the file at a path. A directory can be
opened, but not be read. -/
def readMessage (path : String) : FileFault → String
  | isDirectory => "read " ++ path ++ ": is a directory"
  | f => "open " ++ path ++ ": " ++ f.reason

/-- The text of a fault met while making the file at a path. -/
def writeMessage (path : String) (f : FileFault) : String :=
  "open " ++ path ++ ": " ++ f.reason

end FileFault

/-- The files that a program meets. -/
structure Disk where
  /-- The content of the file at a path. -/
  read : String → Except FileFault String
  /-- Why no file can be made or replaced at a path, if it cannot. -/
  refuses : String → Option FileFault
  /-- Whether something is found at a path. It may still not be readable, and what the
  system does not let a program look at is not found. -/
  has : String → Bool

/-! ### Trees -/

/-- What stands at a name. -/
inductive Entry where
  | file (content : String)
  | directory
deriving Repr, DecidableEq, Inhabited

/-- A directory that is given by the paths of what is in it. -/
structure Tree where
  /-- The path of the directory itself. -/
  root : String := ""
  entries : List (String × Entry)
deriving Repr, Inhabited

namespace Tree

/-- What stands under the names of a path: an entry, or a directory that others
lie in. The directories above the tree are there. -/
def entry? (t : Tree) (names : List String) : Option Entry :=
  if names.all (· = "..") then some .directory
  else match t.entries.find? fun (p, _) => Path.cleanNames p == names with
    | some (_, e) => some e
    | none =>
      if t.entries.any fun (p, _) => names.isPrefixOf (Path.cleanNames p) then some .directory
      else none

/-- Follows names from where the names `before` lead, the last one first. Each is
looked up in a directory, so what is met on the way must be one. -/
def follow (t : Tree) (before : List (List Char)) :
    List (List Char) → Except FileFault (List String)
  | [] => .ok (before.reverse.map String.ofList)
  | name :: rest =>
    match t.entry? (before.reverse.map String.ofList) with
    | some .directory => t.follow (Path.push false before name) rest
    | some (.file _) => .error .notDirectory
    | none => .error .missing

/-- The names under which a path is looked up. Of what lies outside of the tree,
only the root of all paths is known. -/
def namesAt (t : Tree) (path : String) : Except FileFault (List String) :=
  let rest := path.toList.drop t.root.length
  if path.isEmpty then .error .missing
  else if !Path.isAbsolute path then t.follow [] (Path.names path.toList)
  else if !t.root.isEmpty && t.root.toList.isPrefixOf path.toList
      && (rest.isEmpty || rest.head? == some '/') then
    t.follow [] (Path.names rest)
  else .error (if (Path.cleanNames path).isEmpty then .isDirectory else .missing)

/-- The content of the file at a path. -/
def read (t : Tree) (path : String) : Except FileFault String :=
  match t.namesAt path with
  | .error fault => .error fault
  | .ok names =>
    match t.entry? names with
    | some (.file content) => .ok content
    | some .directory => .error .isDirectory
    | none => .error .missing

/-- Why no file can be made or replaced at a path, if it cannot: a directory is
there, or there is none to hold it. -/
def refuses (t : Tree) (path : String) : Option FileFault :=
  match t.namesAt path with
  | .error fault => some fault
  | .ok names => if t.entry? names = some .directory then some .isDirectory else none

/-- Puts a file at a path. -/
def write (t : Tree) (path content : String) : Tree :=
  match t.namesAt path with
  | .error _ => t
  | .ok names =>
    let others := t.entries.filter fun (p, _) => Path.cleanNames p != names
    { t with entries := ("/".intercalate names, .file content) :: others }

/-- Takes away what is at a path. -/
def remove (t : Tree) (path : String) : Tree :=
  match t.namesAt path with
  | .error _ => t
  | .ok names => { t with entries := t.entries.filter fun (p, _) => Path.cleanNames p != names }

/-- Puts a directory at a path. -/
def makeDirectory (t : Tree) (path : String) : Tree :=
  match t.namesAt path with
  | .error _ => t
  | .ok names => { t with entries := ("/".intercalate names, .directory) :: t.entries }

/-- Whether something is at a path. -/
def has (t : Tree) (path : String) : Bool :=
  match t.read path with
  | .error .missing => false
  | .error .notDirectory => false
  | _ => true

/-- The tree as a program meets it. -/
def disk (t : Tree) : Disk := ⟨t.read, t.refuses, t.has⟩

end Tree

end Pseudocode
