/-
# Settings

The settings of the program, their default values, and the assignments that
change them. A document of settings is a list of assignments, whatever its
format: its settings are the default ones with the assignments made in turn.

Key definitions: `Setting`, `Settings`, `Assignment`, `Settings.ofAssignments`,
`Settings.validate`.
-/
import Pseudocode.Duration
import Pseudocode.Log
import Pseudocode.Text.Fold

namespace Pseudocode

/-- The sections that settings are grouped in. -/
inductive Section where
  | log
  | output
  | trace
  | repl
  | watch
deriving Repr, DecidableEq, Inhabited

/-- The settings. -/
inductive Setting where
  /-- The least level that is logged. -/
  | logLevel
  /-- Whether results are styled. -/
  | color
  /-- How trees are printed. -/
  | astFormat
  /-- Whether a run prints its tokens. -/
  | traceTokens
  /-- Whether a run prints its tree. -/
  | traceAst
  /-- The prompt of an interactive session. -/
  | prompt
  /-- The file that keeps the entries of interactive sessions. -/
  | historyFile
  /-- How long a watched file has to stay unchanged. -/
  | debounce
deriving Repr, DecidableEq, Inhabited

namespace Section

/-- All sections. -/
def all : List Section := [log, output, trace, repl, watch]

/-- The name of a section in a document. -/
def name : Section → String
  | log => "log"
  | output => "output"
  | trace => "trace"
  | repl => "repl"
  | watch => "watch"

end Section

namespace Setting

/-- All settings. -/
def all : List Setting :=
  [logLevel, color, astFormat, traceTokens, traceAst, prompt, historyFile, debounce]

/-- The section of a setting. -/
def group : Setting → Section
  | logLevel => .log
  | color => .output
  | astFormat => .output
  | traceTokens => .trace
  | traceAst => .trace
  | prompt => .repl
  | historyFile => .repl
  | debounce => .watch

/-- The name of a setting in its section. -/
def name : Setting → String
  | logLevel => "level"
  | color => "color"
  | astFormat => "ast_format"
  | traceTokens => "tokens"
  | traceAst => "ast"
  | prompt => "prompt"
  | historyFile => "history_file"
  | debounce => "debounce"

/-- The name of a setting with that of its section. -/
def fullName (s : Setting) : String := s.group.name ++ "." ++ s.name

end Setting

/-- A value for each setting. -/
structure Settings where
  logLevel : String := "warn"
  color : Bool := true
  astFormat : String := "text"
  traceTokens : Bool := false
  traceAst : Bool := false
  prompt : String := "aqa> "
  historyFile : String := ".aqa_history"
  debounce : Duration := ⟨100000000⟩
deriving Repr, DecidableEq, Inhabited

/-- A setting with a value for it. -/
inductive Assignment where
  | logLevel (s : String)
  | color (b : Bool)
  | astFormat (s : String)
  | traceTokens (b : Bool)
  | traceAst (b : Bool)
  | prompt (s : String)
  | historyFile (s : String)
  | debounce (d : Duration)
deriving Repr, DecidableEq, Inhabited

/-- The setting of an assignment. -/
def Assignment.setting : Assignment → Setting
  | logLevel _ => .logLevel
  | color _ => .color
  | astFormat _ => .astFormat
  | traceTokens _ => .traceTokens
  | traceAst _ => .traceAst
  | prompt _ => .prompt
  | historyFile _ => .historyFile
  | debounce _ => .debounce

namespace Settings

/-- The settings when nothing is assigned. -/
def default : Settings := {}

/-- Makes an assignment. -/
def assign (s : Settings) : Assignment → Settings
  | .logLevel x => { s with logLevel := x }
  | .color x => { s with color := x }
  | .astFormat x => { s with astFormat := x }
  | .traceTokens x => { s with traceTokens := x }
  | .traceAst x => { s with traceAst := x }
  | .prompt x => { s with prompt := x }
  | .historyFile x => { s with historyFile := x }
  | .debounce x => { s with debounce := x }

/-- The default settings with the assignments made in turn. -/
def ofAssignments (as : List Assignment) : Settings := as.foldl assign default

end Settings

/-! ### Valid settings -/

/-- The level that a name stands for, in any letter case. -/
def Level.ofName? (s : String) : Option Level :=
  match lowerCase s with
  | "debug" => some .debug
  | "info" => some .info
  | "warn" => some .warn
  | "warning" => some .warn
  | "error" => some .error
  | _ => none

/-- How a tree is printed. -/
inductive TreeFormat where
  | text
  | json
  | yaml
deriving Repr, DecidableEq, Inhabited

/-- The format that a name stands for. -/
def TreeFormat.ofName? : String → Option TreeFormat
  | "text" => some .text
  | "json" => some .json
  | "yaml" => some .yaml
  | _ => none

/-- A value that a setting must not have. -/
inductive SettingFault where
  | logLevel (s : String)
  | astFormat (s : String)
  | debounce (d : Duration)
deriving Repr, DecidableEq, Inhabited

/-- The text of a fault. -/
def SettingFault.message : SettingFault → String
  | logLevel s => "invalid log.level " ++ quoteText s ++ ": want debug, info, warn, or error"
  | astFormat s => "invalid output.ast_format " ++ quoteText s ++ ": want text, json, or yaml"
  | debounce d => "invalid watch.debounce " ++ d.text ++ ": must not be negative"

namespace Settings

/-- The first setting with a value it must not have, if there is one. -/
def fault? (s : Settings) : Option SettingFault :=
  if (Level.ofName? s.logLevel).isNone then some (.logLevel s.logLevel)
  else if (TreeFormat.ofName? s.astFormat).isNone then some (.astFormat s.astFormat)
  else if s.debounce.nanoseconds < 0 then some (.debounce s.debounce)
  else none

/-- The least level that is logged; warnings if the setting has no valid value. -/
def level (s : Settings) : Level := (Level.ofName? s.logLevel).getD .warn

end Settings

end Pseudocode
