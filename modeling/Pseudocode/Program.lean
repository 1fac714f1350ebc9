/-
# The program

What the program does, given the words it is called with and the world around it:
its files, its environment and its input. What it writes comes back, with its
outcome and with the history of a session to be saved.

Key definitions: `World`, `Outcome`, `Result`, `Console.runFile`, `Program.execute`.
-/
import Pseudocode.CommandLine.Command
import Pseudocode.Decoder.Standard
import Pseudocode.Session.History
import Pseudocode.Session.Pipe
import Pseudocode.Settings.Load

namespace Pseudocode

open CommandLine

/-- What is known of how the program was built. -/
structure Build where
  version : String := "dev"
  commit : String := "unknown"
  date : String := "unknown"
  toolchain : String := "unknown"
  platform : String := "unknown"
deriving Repr, Inhabited

/-- The lines that tell how the program was built. -/
def Build.text (b : Build) : String :=
  String.join ["aqa ", b.version, "\n  commit:  ", b.commit, "\n  built:   ", b.date,
    "\n  go:      ", b.toolchain, "\n  os/arch: ", b.platform, "\n"]

/-- What is around the program. -/
structure World where
  disk : Disk
  env : Environment
  /-- What documents of settings are decoded with. -/
  decoders : Decoders := .standard
  input : String := ""
  /-- Whether the terminal shows colours. -/
  colours : Bool := false
  /-- What log lines say of the time that a stage took. -/
  timing : List (String × String) := []
  /-- How the usage of a command reads. -/
  usage : Command → String := Command.usage
  /-- Where notices on usage are written. -/
  notice : String → Output := fun s => { err := s }
  build : Build := {}

/-- How the program ends. -/
inductive Outcome where
  | done
  /-- It failed, and has said so already. -/
  | reported
  | failed (message : String)
deriving Repr, DecidableEq, Inhabited

/-- The error of an outcome. -/
def Outcome.error? : Outcome → Option String
  | done => none
  | reported => some "error already reported"
  | failed message => some message

/-- What the program writes, how it ends, and a file it saves. -/
structure Result where
  output : Output := {}
  outcome : Outcome := .done
  saved? : Option (String × String) := none
deriving Repr, Inhabited

/-! ### Files -/

namespace Console

/-- Runs stages on the source in a file, where `print` writes their result. -/
def onFile {α : Type} (c : Console) (disk : Disk) (file : String) (t : Trace)
    (stages : String → String → Run α) (print : α → Output) : Output × Outcome :=
  match disk.read file with
  | .error fault => ({}, .failed ("failed to read source: " ++ fault.readMessage file))
  | .ok src =>
    let r := stages file src
    (c.showRun file t print r, if r.outcome.isOk then .done else .reported)

/-- Evaluates a file. -/
def runFile (c : Console) (disk : Disk) (file : String) (t : Trace) : Output × Outcome :=
  c.onFile disk file t runSource c.showValue

/-- Prints the tokens of a file. -/
def tokensOfFile (c : Console) (disk : Disk) (file : String) : Output × Outcome :=
  c.onFile disk file {} scanStage fun ts => { out := tokenTable ts }

/-- Prints the tree of a file. -/
def treeOfFile (c : Console) (disk : Disk) (file : String) (format : TreeFormat) :
    Output × Outcome :=
  c.onFile disk file {} parseStage fun x => { out := x.print format }

/-! ### Watching -/

/-- Why a file cannot be watched, if it cannot: its directory is not there. -/
def watchFault? (disk : Disk) (file : String) : Option FileFault :=
  match disk.read (Path.join file "..") with
  | .error .missing => some .missing
  | .error .notDirectory => some .notDirectory
  | _ => none

/-- Evaluates a file once more after a change. -/
def rerun (c : Console) (file : String) (t : Trace) (change : String) (disk : Disk) :
    Output × Outcome :=
  let (o, outcome) := c.runFile disk file t
  (c.log ⟨.debug, "file changed", [("file", file), ("op", change)]⟩
    ++ .errorLine (c.styles.header ("re-run " ++ file)) ++ o, outcome)

/-- Evaluates a file after each of some changes, until it cannot be read. A change
comes with its name and the files after it. -/
def reruns (c : Console) (file : String) (t : Trace) :
    List (String × Disk) → List Output × Outcome
  | [] => ([], .done)
  | (change, disk) :: rest =>
    match c.rerun file t change disk with
    | (o, .failed message) => ([o], .failed message)
    | (o, _) =>
      let (os, outcome) := reruns c file t rest
      (o :: os, outcome)

/-- Evaluates a file at first and after each of some changes: what each time
writes. -/
def watchFile (c : Console) (disk : Disk) (file : String) (t : Trace)
    (changes : List (String × Disk)) : List Output × Outcome :=
  match watchFault? disk file with
  | some fault => ([], .failed ("failed to watch " ++ file ++ ": " ++ fault.reason))
  | none =>
    let note := c.log ⟨.info, "watching",
      [("file", file), ("debounce", c.settings.debounce.text)]⟩
    match c.runFile disk file t with
    | (o, .failed message) => ([note ++ o], .failed message)
    | (o, _) =>
      let (os, outcome) := c.reruns file t changes
      ((note ++ o) :: os, outcome)

end Console

/-! ### Commands -/

/-- The settings with what the flags say. -/
def CommandLine.Options.settings (o : Options) (s : Settings) : Settings :=
  { s with
    logLevel := if o.verbose then "debug" else s.logLevel
    color := s.color && !o.noColor }

/-- What is shown of a run, by the flags and the settings. -/
def CommandLine.Options.trace (o : Options) (c : Console) : Trace :=
  { tokens := o.traceTokens || c.settings.traceTokens
    tree? := if o.traceAst || c.settings.traceAst then some (.full c.treeFormat) else none }

namespace Program

/-- The help on a command. -/
def help (c : Command) : Output := .line c.description

/-- The console for a command, once the settings are loaded. -/
def setup (w : World) (o : Options) : Except LoadFault Console :=
  (Settings.load w.decoders w.disk w.env o.config).map fun s => ⟨o.settings s, w.colours, w.timing⟩

/-- Prints the tree of a file in the format that the flags ask for, else the
settings. -/
def ast (w : World) (c : Console) (o : Options) (file : String) : Output × Outcome :=
  let name := if o.format.isEmpty then c.settings.astFormat else o.format
  match TreeFormat.ofName? name with
  | some format => c.treeOfFile w.disk file format
  | none => ({}, .failed ("unknown format " ++ quoteText name ++ ": want text, json, or yaml"))

/-- A word in a message on words: in single marks where it can be. -/
def topicWord (s : String) : String :=
  let isRaw (c : Char) : Bool :=
    c ≠ '\x60' && c ≠ '\x7f' && c ≠ '\ufeff' && (c = '\t' || ' ' ≤ c)
  if s.toList.all isRaw then "\x60" ++ s ++ "\x60" else quoteText s

/-- Help on the command that words name. -/
def helpOn (w : World) (words : List String) : Output :=
  match Command.ofWords words with
  | .ok (c, _) => help c
  | .error _ =>
    w.notice ("Unknown help topic [" ++ " ".intercalate (words.map topicWord) ++ "]\n"
      ++ w.usage .root)

/-- A session whose lines come from the input. Its history is read before it and
saved after it. -/
def repl (w : World) (c : Console) : Result :=
  let (o, error?) := Session.onPipe c w.input
  let outcome := match error? with
    | none => Outcome.done
    | some message => .failed message
  match c.settings.historyPath? w.env with
  | none => ⟨o, outcome, none⟩
  | some path =>
    let before := match w.disk.read path with
      | .ok text => History.ofText text
      | .error _ => {}
    match w.disk.refuses path with
    | none => ⟨o, outcome, some (path, (before.addAll o.history).text)⟩
    | some fault =>
      let note := c.log ⟨.warn, "failed to save history",
        [("path", path), ("error", fault.writeMessage path)]⟩
      ⟨o ++ note, outcome, none⟩

/-- Carries out a command. -/
def perform (w : World) (c : Console) (o : Options) (command : Command)
    (arguments : List String) : Result :=
  let file := arguments.headD ""
  let plain (r : Output × Outcome) : Result := ⟨r.1, r.2, none⟩
  match command with
  | .run =>
    if o.watch then
      let (os, outcome) := c.watchFile w.disk file (o.trace c) []
      ⟨.concat os, outcome, none⟩
    else plain (c.runFile w.disk file (o.trace c))
  | .tokens => plain (c.tokensOfFile w.disk file)
  | .ast => plain (ast w c o file)
  | .repl => repl w c
  | .version => { output := { out := w.build.text } }
  | .help => { output := helpOn w arguments }
  | .root => { output := help .root }

/-- Does what words ask for. -/
def execute (w : World) (words : List String) : Result :=
  match Request.ofWords words with
  | .help c => { output := help c }
  | .refuse message none => { outcome := .failed message }
  | .refuse message (some c) => { output := w.notice (w.usage c ++ "\n"), outcome := .failed message }
  | .perform command o arguments =>
    match setup w o with
    | .error fault => { outcome := .failed ("failed to load config: " ++ fault.message) }
    | .ok c => perform w c o command arguments

/-- The paths of the files that may be read for a command. -/
def files (env : Environment) (o : Options) (arguments : List String) : List String :=
  let settings := if !o.config.isEmpty then o.config
    else (env.get? "AQA_CONFIG").getD defaultFile
  settings :: arguments

/-- The status that the program leaves with. -/
def status (outcome : Outcome) : Nat := if outcome = .done then 0 else 1

/-- What is written at last: an error that nothing has said yet. -/
def farewell : Outcome → Output
  | .failed message => .errorLine ("error: " ++ message)
  | _ => {}

end Program

end Pseudocode
