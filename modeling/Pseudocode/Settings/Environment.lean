/-
# Settings from the environment

Three settings can be given in the environment, and the environment names the
place of some files. A variable without a value counts as not there.

Key definitions: `Environment`, `Environment.overrides`, `Settings.override`,
`Settings.historyPath`.
-/
import Pseudocode.Path
import Pseudocode.Settings
import Pseudocode.Text.Truth

namespace Pseudocode

/-- Variables and their values. -/
abbrev Environment := List (String × String)

/-- The value of a variable, if it has one. -/
def Environment.get? (env : Environment) (name : String) : Option String :=
  (env.lookup name).filter (!·.isEmpty)

/-- The word for colour in the environment is none for a truth value. -/
structure EnvironmentFault where
  word : String
deriving Repr, DecidableEq, Inhabited

/-- The text of a fault. -/
def EnvironmentFault.message (f : EnvironmentFault) : String :=
  "AQA_COLOR: invalid boolean " ++ quoteText f.word

/-- The assignments that the environment makes: those made before a fault, and
the fault. -/
def Environment.overrides (env : Environment) : List Assignment × Option EnvironmentFault :=
  let level := (env.get? "AQA_LOG_LEVEL").map .logLevel
  let format := (env.get? "AQA_AST_FORMAT").map .astFormat
  match env.get? "AQA_COLOR" with
  | none => (level.toList ++ format.toList, none)
  | some word =>
    match truthOf? word with
    | some b => (level.toList ++ .color b :: format.toList, none)
    | none => (level.toList, some ⟨word⟩)

namespace Settings

/-- The settings with what the environment assigns, up to a fault. -/
def override (s : Settings) (env : Environment) : Settings × Option EnvironmentFault :=
  (env.overrides.1.foldl assign s, env.overrides.2)

/-- The path of the file that keeps the entries of interactive sessions. It lies
in the home directory; without one, and without a name, there is no such file. -/
def historyPath? (s : Settings) (env : Environment) : Option String :=
  if s.historyFile.isEmpty then none
  else if Path.isAbsolute s.historyFile then some s.historyFile
  else (env.get? "HOME").map fun home => Path.join home s.historyFile

end Settings

end Pseudocode
