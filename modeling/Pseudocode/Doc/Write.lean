/-
# Writing documents

A document is offered to a sink as one text. If the sink refuses it, it has a reason.
JSON fails for that reason, and YAML says that writing failed for it.

Key definitions: `Doc.writeJson`, `Doc.writeYaml`.
-/
import Pseudocode.Doc.Yaml
import Pseudocode.Token.Table

namespace Pseudocode

/-- Offers a text to a sink: its state then, and the error if the text is refused. -/
def Sink.offer {σ : Type} (sink : Sink σ) (text error : String) (s : σ) : σ × Option String :=
  let next := sink s text
  (next.1, if next.2 then none else some error)

namespace Doc

variable {σ : Type}

/-- Writes a document as JSON to a sink that refuses texts for a reason. -/
def writeJson (sink : Sink σ) (reason : String) (d : Doc) : σ → σ × Option String :=
  sink.offer d.toJson reason

/-- Writes a document as YAML to a sink that refuses texts for a reason. -/
def writeYaml (sink : Sink σ) (reason : String) (d : Doc) : σ → σ × Option String :=
  sink.offer d.toYaml (yamlWriteError reason)

end Doc

end Pseudocode
