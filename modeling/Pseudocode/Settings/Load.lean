/-
# Where settings come from

Settings are read from a file, then the environment goes over them, and at last
they are checked. The file is the one that is asked for, else the one that the
environment names, else `aqa.toml` if it is there. The end of its name tells its
format.

Key definitions: `settingsFile?`, `Settings.ofFile`, `Settings.load`.
-/
import Pseudocode.Disk
import Pseudocode.Settings.Document
import Pseudocode.Settings.Environment

namespace Pseudocode

/-- Why there are no settings. -/
inductive LoadFault where
  | notFound (path : String)
  | unreadable (path : String) (fault : FileFault)
  | document (path : String) (fault : DocumentFault)
  | environment (fault : EnvironmentFault)
  | setting (fault : SettingFault)
deriving Repr, DecidableEq, Inhabited

/-- The text of a fault. -/
def LoadFault.message : LoadFault → String
  | notFound path => "config file not found: " ++ path
  | unreadable path fault => "failed to read config: " ++ fault.readMessage path
  | document path fault => path ++ ": " ++ fault.message
  | environment fault => fault.message
  | setting fault => fault.message

/-- The format that the end of a file's name tells. -/
def Format.ofPath (path : String) : Format :=
  if [".yaml", ".yml"].contains (lowerCase (Path.extension path)) then .yaml else .toml

/-- The choice for a file, made by its name if that is asked for. -/
def FormatChoice.forPath (path : String) : FormatChoice → FormatChoice
  | auto => given (Format.ofPath path)
  | choice => choice

/-- The file of settings that is used when none is named. -/
def defaultFile : String := "aqa.toml"

/-- The file that settings are read from, if there is one. -/
def settingsFile? (disk : Disk) (env : Environment) (path : String) : Option String :=
  if !path.isEmpty then some path
  else match env.get? "AQA_CONFIG" with
    | some named => some named
    | none => if disk.has defaultFile then some defaultFile else none

namespace Settings

/-- The settings in a file. -/
def ofFile (lib : Decoders) (disk : Disk) (choice : FormatChoice) (path : String) :
    Except LoadFault Settings :=
  match disk.read path with
  | .error .missing => .error (.notFound path)
  | .error fault => .error (.unreadable path fault)
  | .ok text => (ofText lib (choice.forPath path) text).mapError (.document path)

/-- The settings from a file, if there is one, else the default ones. -/
def ofFile? (lib : Decoders) (disk : Disk) (path? : Option String) : Except LoadFault Settings :=
  match path? with
  | none => .ok default
  | some path => ofFile lib disk .auto path

/-- The settings to work with. -/
def load (lib : Decoders) (disk : Disk) (env : Environment) (path : String) :
    Except LoadFault Settings := do
  let settings ← ofFile? lib disk (settingsFile? disk env path)
  match settings.override env with
  | (_, some fault) => .error (.environment fault)
  | (merged, none) =>
    match merged.fault? with
    | some fault => .error (.setting fault)
    | none => .ok merged

end Settings

end Pseudocode
