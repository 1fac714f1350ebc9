/-
# Sessions on a pipe

A session that reads its lines from a text and writes its prompts to standard
output. A prompt must not hold characters that control a terminal.

Key definitions: `isControl`, `Session.onPipe`.
-/
import Pseudocode.Session
import Pseudocode.Text.Lines

namespace Pseudocode

/-- The characters that control something, and those for private use. -/
def controlCodes : SwitchTable := ⟨[
  0x0, 0x20, 0x7f, 0xa0, 0xad, 0xae, 0x600, 0x606, 0x61c, 0x61d, 0x6dd, 0x6de, 0x70f, 0x710, 0x890,
  0x892, 0x8e2, 0x8e3, 0x180e, 0x180f, 0x200b, 0x2010, 0x202a, 0x202f, 0x2060, 0x2065, 0x2066,
  0x2070, 0xe000, 0xf900, 0xfeff, 0xff00, 0xfff9, 0xfffc, 0x110bd, 0x110be, 0x110cd, 0x110ce,
  0x13430, 0x13440, 0x1bca0, 0x1bca4, 0x1d173, 0x1d17b, 0xe0001, 0xe0002, 0xe0020, 0xe0080, 0xf0000,
  0xffffe, 0x100000, 0x10fffe]⟩

/-- Whether a character controls something. -/
def isControl (c : Char) : Bool := controlCodes.contains c

/-- Whether a prompt can be shown. -/
def isPrompt (s : String) : Bool := !s.toList.any isControl

/-- What a session writes whose lines come from a text, and the error it ends
with. -/
def Session.onPipe (c : Console) (input : String) : Output × Option String :=
  let valid := isPrompt c.settings.prompt
  let answers := if valid then (inputLines input).map Answer.line else [.failure "invalid prompt"]
  let (turns, error?) := Session.transcript c answers
  let shown (t : Turn) : Output :=
    t.output ++ { out := if valid then t.prompt?.getD "" else "" }
  (Output.concat (turns.map shown), error?)

end Pseudocode
