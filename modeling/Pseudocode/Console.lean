/-
# Runs on a console

What the events of a run look like on a console: log lines on standard error, and
on standard output what is traced of the tokens and the tree. A value is printed
on standard output, a failure as a diagnostic on standard error that names the
file, the stage and the place.

The console has no clock. What is logged of times is given to it.

Key definitions: `Console`, `Trace`, `Console.showEvent`, `Console.showRun`,
`Console.diagnostic`.
-/
import Pseudocode.Doc.Yaml
import Pseudocode.Expr.Outline
import Pseudocode.Expr.Printer
import Pseudocode.Output
import Pseudocode.Settings
import Pseudocode.Style
import Pseudocode.Token.Table

namespace Pseudocode

/-- How output looks. -/
structure Console where
  settings : Settings := {}
  /-- Whether the terminal shows colours. -/
  colours : Bool := false
  /-- What log lines say of the time that a stage took. -/
  timing : List (String × String) := []
deriving Repr, Inhabited

/-- How a tree is shown when it is traced. -/
inductive TreeTrace where
  /-- On lines of its own, in a format. -/
  | full (format : TreeFormat)
  /-- On one line, with all parentheses. -/
  | line
deriving Repr, DecidableEq, Inhabited

/-- What is shown of a run. -/
structure Trace where
  tokens : Bool := false
  tree? : Option TreeTrace := none
deriving Repr, DecidableEq, Inhabited

/-- A tree in a format. -/
def Expr.print (e : Expr) : TreeFormat → String
  | .text => e.outline
  | .json => e.toDoc.toJson
  | .yaml => e.toDoc.toYaml

namespace Console

/-- The styles of a console. -/
def styles (c : Console) : Styles := ⟨c.settings.color, c.colours⟩

/-- The format of trees; outlines if the setting has no valid value. -/
def treeFormat (c : Console) : TreeFormat := (TreeFormat.ofName? c.settings.astFormat).getD .text

/-- The log line of a record, if its level is logged. -/
def log (c : Console) (r : Record) : Output :=
  if r.level.passes c.settings.level then { err := r.line } else {}

/-- A failure as a diagnostic. -/
def diagnostic (c : Console) (file : String) (stage : Stage) (message : String) : String :=
  let lead := if file.isEmpty then "" else file ++ ": "
  lead ++ c.styles.render .stage (stage.name ++ " error:") ++ " "
    ++ c.styles.render .message message

/-- The tokens of a run, if they are traced. -/
def showTokens (c : Console) (t : Trace) (ts : List Token) : Output :=
  if t.tokens then .line (c.styles.header "tokens") ++ { out := tokenTable ts } else {}

/-- The tree of a run, if it is traced. -/
def showTree (c : Console) (t : Trace) (e : Expr) : Output :=
  match t.tree? with
  | none => {}
  | some .line => .line (c.styles.header "ast" ++ " " ++ e.source)
  | some (.full format) => .line (c.styles.header "ast") ++ { out := e.print format }

/-- What an event of a run on a file writes. -/
def showEvent (c : Console) (file : String) (t : Trace) (e : Event) : Output :=
  let logged := ((e.record? [("file", file)] c.timing).map c.log).getD {}
  match e with
  | .tokens ts => logged ++ c.showTokens t ts
  | .tree x => logged ++ c.showTree t x
  | _ => logged

/-- What the events of a run on a file write. -/
def showEvents (c : Console) (file : String) (t : Trace) (es : List Event) : Output :=
  Output.concat (es.map (c.showEvent file t))

/-- What a failure writes. -/
def showFailure (c : Console) (file : String) (f : Failure) : Output :=
  match f.marked?, f.stage? with
  | some marked, some stage => .errorLine (c.diagnostic file stage marked.message)
  | _, _ => .errorLine ("error: " ++ f.message)

/-- What a run on a file writes, where `print` writes its result. -/
def showRun {α : Type} (c : Console) (file : String) (t : Trace) (print : α → Output) (r : Run α) :
    Output :=
  c.showEvents file t r.events ++
    match r.outcome with
    | .ok a => print a
    | .error f => c.showFailure file f

/-- What a value writes. -/
def showValue (c : Console) (v : Value) : Output := .line (c.styles.render .value v.display)

end Console

end Pseudocode
