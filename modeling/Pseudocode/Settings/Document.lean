/-
# Documents of settings

Settings are written in TOML or in YAML. Either way a document is decoded into a
record of sections, which are records of settings, and the settings that it has no
value for keep their defaults. A duration is a record too, with a form as a text. A
key that names no setting makes the document invalid.

Key definitions: `Settings.shape`, `Write.assignment?`, `Format`, `DocumentFault`,
`Settings.ofText`.
-/
import Pseudocode.Decoder
import Pseudocode.Settings

namespace Pseudocode

/-! ### Settings as records -/

/-- A duration is a record around a length of time, and is written as a text. -/
def Duration.shape : DataShape :=
  .record (some fun s => (Duration.ofText s).toOption) ["duration"] fun _ => .span

namespace Setting

/-- The type of the values of a setting. -/
def shape : Setting → DataShape
  | logLevel => .text
  | color => .flag
  | astFormat => .text
  | traceTokens => .flag
  | traceAst => .flag
  | prompt => .text
  | historyFile => .text
  | debounce => Duration.shape

/-- The setting with a name in a section. -/
def named? (g : Section) (name : String) : Option Setting :=
  all.find? fun x => x.group = g && x.name = name

/-- The assignment of a value to a setting, if the value has the right type. -/
def assignment? : Setting → Stored → Option Assignment
  | logLevel, .text s => some (.logLevel s)
  | color, .flag b => some (.color b)
  | astFormat, .text s => some (.astFormat s)
  | traceTokens, .flag b => some (.traceTokens b)
  | traceAst, .flag b => some (.traceAst b)
  | prompt, .text s => some (.prompt s)
  | historyFile, .text s => some (.historyFile s)
  | debounce, .span d => some (.debounce d)
  | _, _ => none

end Setting

namespace Section

/-- The section with a name. -/
def named? (name : String) : Option Section := all.find? (·.name = name)

/-- A section is a record of its settings. -/
def shape (g : Section) : DataShape :=
  .record none ((Setting.all.filter (·.group = g)).map Setting.name) fun name =>
    ((Setting.named? g name).map Setting.shape).getD .text

end Section

/-- The settings are a record of the sections. -/
def Settings.shape : DataShape :=
  .record none (Section.all.map Section.name) fun name =>
    ((Section.named? name).map Section.shape).getD .text

/-- The assignment that a write makes: what is stored in the record of a duration is the
duration. -/
def Write.assignment? (w : Write) : Option Assignment := do
  match w.path with
  | group :: name :: _ => (← Setting.named? (← Section.named? group) name).assignment? w.value
  | _ => none

/-- The default settings with the writes made in turn. -/
def Settings.ofWrites (ws : List Write) : Settings := ofAssignments (ws.filterMap (·.assignment?))

/-! ### Formats -/

/-- What a document of settings is written in. -/
inductive Format where
  | toml
  | yaml
deriving Repr, DecidableEq, Inhabited

/-- How a document is to be read. -/
inductive FormatChoice where
  | given (format : Format)
  /-- The name of the file tells the format. -/
  | auto
  | unknown
deriving Repr, DecidableEq, Inhabited

namespace FormatChoice

/-- The name of a choice. -/
def name : FormatChoice → String
  | given .toml => "toml"
  | given .yaml => "yaml"
  | auto => "auto"
  | unknown => "unknown"

/-- The choice with a name. -/
def ofName (s : String) : FormatChoice :=
  ([given .toml, given .yaml, auto].find? (·.name = s)).getD unknown

/-- The choice with a number. -/
def ofCode : Int → FormatChoice
  | 0 => given .toml
  | 1 => given .yaml
  | 2 => auto
  | _ => unknown

end FormatChoice

/-- Why a text is no document of settings. -/
inductive DocumentFault where
  /-- A text alone does not tell its format. -/
  | unsupported (choice : FormatChoice)
  /-- The text is not well formed, or a value has the wrong type. -/
  | malformed (format : Format)
  /-- Nothing was decoded for some keys. -/
  | unknownKeys (keys : List String)
deriving Repr, DecidableEq, Inhabited

/-- The text of a fault. -/
def DocumentFault.message : DocumentFault → String
  | unsupported choice => "unsupported format: " ++ choice.name
  | malformed .toml => "TOML parse error: not a document of settings"
  | malformed .yaml => "YAML parse error: not a document of settings"
  | unknownKeys keys => "unknown config keys: " ++ ", ".intercalate keys

/-- The settings of a document. -/
def Settings.ofText (lib : Decoders) (choice : FormatChoice) (text : String) :
    Except DocumentFault Settings :=
  match choice with
  | .given .toml =>
    match lib.toml Settings.shape text with
    | none => .error (.malformed .toml)
    | some ⟨writes, []⟩ => .ok (.ofWrites writes)
    | some ⟨_, keys⟩ => .error (.unknownKeys keys)
  | .given .yaml =>
    match lib.yaml true Settings.shape text with
    | .error .endOfInput => .ok .default
    | .error .refused => .error (.malformed .yaml)
    | .ok writes => .ok (.ofWrites writes)
  | choice => .error (.unsupported choice)

end Pseudocode
