/-
# From source to value

A source is scanned, parsed and evaluated. The first stage that fails ends the
run, with its failure marked by the stage. On the way the run makes events: each
stage that completes is recorded, and the tokens and the tree are shown to
whoever traces the run.

Key definitions: `Event`, `Run`, `scanStage`, `parseStage`, `runSource`.
-/
import Pseudocode.Expr.Parser
import Pseudocode.Failure
import Pseudocode.Token.Scanner

namespace Pseudocode

/-- What happens in a run. -/
inductive Event where
  /-- The scanner completed with a number of tokens. -/
  | scanned (count : Nat)
  /-- The tokens are shown. -/
  | tokens (ts : List Token)
  /-- The parser completed. -/
  | parsed
  /-- The tree is shown. -/
  | tree (e : Expr)
  /-- The evaluation completed with a value of a kind. -/
  | evaluated (kind : Kind)
deriving Repr, Inhabited

/-- The events of a run in order, and its outcome. -/
structure Run (α : Type) where
  events : List Event
  outcome : Except Failure α
deriving Repr, Inhabited

namespace Run

/-- Goes on with the result of a run, if there is one. -/
def andThen {α β : Type} (r : Run α) (f : α → Run β) : Run β :=
  match r.outcome with
  | .error e => ⟨r.events, .error e⟩
  | .ok a => ⟨r.events ++ (f a).events, (f a).outcome⟩

/-- A stage: its failure, or its result and the events that tell of it. -/
def ofStage {α : Type} (stage : Stage) (events : α → List Event) : Except Failure α → Run α
  | .error e => ⟨[], .error (.staged stage e)⟩
  | .ok a => ⟨events a, .ok a⟩

end Run

/-- Scans a source. -/
def scanStage (file src : String) : Run (List Token) :=
  .ofStage .scanner (fun ts => [.scanned ts.length, .tokens ts])
    ((scan file src).mapError .scan)

/-- Scans and parses a source. -/
def parseStage (file src : String) : Run Expr :=
  (scanStage file src).andThen fun ts =>
    .ofStage .parser (fun x => [.parsed, .tree x]) ((parseTokens ts).mapError .parse)

/-- Scans, parses and evaluates a source. -/
def runSource (file src : String) : Run Value :=
  (parseStage file src).andThen fun x =>
    .ofStage .interpreter (fun v => [.evaluated v.kind]) (x.eval.mapError .ofEval)

/-- Scans and parses a source without regard to stages. -/
def parseSource (file src : String) : Except Failure Expr :=
  match scan file src with
  | .error e => .error (.scan e)
  | .ok ts => (parseTokens ts).mapError .parse

end Pseudocode
