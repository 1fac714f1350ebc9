/-
# The command line

Reads the files and the environment that the program needs, and writes what it
says. A session and a watched file are followed step by step.

Key definitions: `main`.
-/
import Pseudocode.Program
import Pseudocode.Text.Utf8

namespace Pseudocode.CommandLine

/-- What keeps a file from being read. -/
def fileFault : IO.Error → FileFault
  | .noFileOrDirectory _ _ _ => .missing
  | .inappropriateType _ _ "not a directory" => .notDirectory
  | .inappropriateType _ _ _ => .isDirectory
  | e => .other (toString e)

/-- Reads a file. -/
def readPath (path : String) : IO (Except FileFault String) := do
  try
    let bytes ← IO.FS.readBinFile path
    return .ok (textOfBytes bytes.toList)
  catch e => return .error (fileFault e)

/-- Whether something is found at a path. -/
def isFound (path : String) : IO Bool := do
  try
    discard (IO.FS.realPath path)
    return true
  catch _ => return false

/-- The files at some paths, as they are now. -/
def snapshot (paths : List String) : IO Disk := do
  let contents ← paths.mapM fun p => do return (p, ← readPath p)
  let found ← paths.filterM isFound
  return ⟨fun p => (contents.lookup p).getD (.error .missing), fun _ => none, found.contains⟩

/-- The variables that the program knows. -/
def readEnvironment : IO Environment := do
  let names := ["AQA_CONFIG", "AQA_LOG_LEVEL", "AQA_COLOR", "AQA_AST_FORMAT", "HOME"]
  let values ← names.mapM fun name => do return (name, (← IO.getEnv name).getD "")
  return values

/-- Writes an output. -/
def write (o : Output) : IO Unit := do
  let out ← IO.getStdout
  let err ← IO.getStderr
  err.putStr o.err
  out.putStr o.out
  out.flush

/-- Reads the answer to a prompt. -/
def readAnswer (prompt : String) : IO Answer := do
  write { out := prompt }
  let line ← (← IO.getStdin).getLine
  if line.isEmpty then return .endOfInput
  return .line ((inputLines line).headD "")

/-- Follows a session to its end; its entries and its error come back. -/
partial def converse (s : Session) (entries : List String) :
    IO (List String × Option String) := do
  let (o, progress) := s.answer (← readAnswer s.prompt)
  write o
  let entries := entries ++ o.history
  match progress with
  | .ends error? => return (entries, error?)
  | .goesOn next => converse next entries

/-- Holds a session, with its history. -/
def session (c : Console) (env : Environment) : IO Outcome := do
  let path? := c.settings.historyPath? env
  let before ← match path? with
    | some path => readPath path
    | none => pure (.error .missing)
  write (Session.start c).greeting
  let (entries, error?) ← if isPrompt c.settings.prompt then converse (.start c) []
    else pure ([], some "invalid prompt")
  if let some path := path? then
    let old := match before with
      | .ok text => History.ofText text
      | .error _ => {}
    try IO.FS.writeFile path (old.addAll entries).text
    catch e =>
      write (c.log ⟨.warn, "failed to save history",
        [("path", path), ("error", (fileFault e).writeMessage path)]⟩)
  return match error? with
    | none => .done
    | some message => .failed message

/-- Looks at a file again and again, and evaluates it when it has changed. -/
partial def follow (c : Console) (file : String) (t : Trace) (before : Except FileFault String) :
    IO Outcome := do
  IO.sleep (max 10 (c.settings.debounce.nanoseconds.toInt / 1000000).toNat).toUInt32
  let now ← readPath file
  let isChange := match before, now with
    | .ok a, .ok b => a != b
    | .error _, .ok _ => true
    | _, .error .isDirectory => true
    | _, _ => false
  if !isChange then follow c file t now
  else
    let (o, outcome) := c.rerun file t "WRITE" ⟨fun _ => now, fun _ => none, fun _ => now.isOk⟩
    write o
    match outcome with
    | .failed message => return .failed message
    | _ => follow c file t now

/-- Watches a file. -/
def watch (c : Console) (disk : Disk) (file : String) (t : Trace) : IO Outcome := do
  let (os, outcome) := c.watchFile disk file t []
  write (.concat os)
  match outcome with
  | .failed message => return .failed message
  | _ => follow c file t (disk.read file)

/-- Does what words ask for. -/
def dispatch (words : List String) : IO Outcome := do
  let env ← readEnvironment
  let colours := (← IO.getEnv "COLORTERM") == some "truecolor" && (← (← IO.getStdout).isTty)
  let request := Request.ofWords words
  let paths := match request with
    | .perform .run o arguments =>
      Program.files env o arguments ++ arguments.map (Path.join · "..")
    | .perform _ o arguments => Program.files env o arguments
    | _ => []
  let disk ← snapshot paths
  let w : World := { disk, env, colours, timing := [("elapsed", "0s")] }
  match request with
  | .perform .repl o _ =>
    match Program.setup w o with
    | .ok c => session c env
    | .error fault => return .failed ("failed to load config: " ++ fault.message)
  | .perform .run o arguments =>
    match o.watch, Program.setup w o with
    | true, .ok c => watch c disk (arguments.headD "") (o.trace c)
    | _, _ => finish (Program.execute w words)
  | _ => finish (Program.execute w words)
where
  finish (r : Result) : IO Outcome := do
    write r.output
    return r.outcome

end Pseudocode.CommandLine

open Pseudocode in
/-- Evaluates pseudocode expressions from the command line. -/
def main (words : List String) : IO UInt32 := do
  let outcome ← CommandLine.dispatch words
  CommandLine.write (Program.farewell outcome)
  return (Program.status outcome).toUInt32
