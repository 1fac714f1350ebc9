/-
# When an entry goes on

An entry that fails only because it ends too early is continued on the next
line. Inside an open text the line break is kept; after an exclamation mark the
next line follows at once; and where the parser ran out of tokens a blank
separates the lines.

Key definitions: `Continuation`, `continuation`, `probe`.
-/
import Pseudocode.Pipeline

namespace Pseudocode

/-- Whether an entry goes on, and what stands between its lines. -/
structure Continuation where
  separator : String := ""
  more : Bool := false
deriving Repr, DecidableEq, Inhabited

/-- Whether an entry that fails so goes on. -/
def continuation (f : Failure) : Continuation :=
  match f.scanError?, f.parseError? with
  | some e, _ =>
    if e.fault ≠ .unexpectedEnd then {}
    else if e.codePoint = '\''.toNat then ⟨"\n", true⟩
    else ⟨"", true⟩
  | none, some e => ⟨" ", e.token.kind = .eof⟩
  | none, none => {}

/-- Whether the text of an entry goes on; a text that parses does not. -/
def probe (src : String) : Continuation :=
  match parseSource "" src with
  | .ok _ => {}
  | .error f => continuation f

end Pseudocode
