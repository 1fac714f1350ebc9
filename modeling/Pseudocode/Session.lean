/-
# Interactive sessions

A session prompts for lines and puts them together to entries. An entry that
fails only because it ends too early is continued on further lines, until one is
blank or the input ends; an aborted entry is dropped. What is submitted goes into
the history, and is a command if it begins with a colon, else a source that is
run. The session ends at a command, at a failure of the input, or when the input
ends where an entry would begin.

A session is a function of the answers to its prompts, one step for each.

Key definitions: `Session`, `Answer`, `Session.answer`, `Session.turns`,
`Session.transcript`.
-/
import Pseudocode.Console
import Pseudocode.Session.Continuation
import Pseudocode.Text.Blank

namespace Pseudocode

/-- The answer to a prompt. -/
inductive Answer where
  | line (text : String)
  /-- The entry is dropped. -/
  | abort
  | endOfInput
  /-- The input cannot be read. -/
  | failure (message : String)
deriving Repr, DecidableEq, Inhabited

/-- An interactive session between two prompts. -/
structure Session where
  console : Console
  traceTokens : Bool
  traceTree : Bool
  /-- The lines of an entry that goes on. -/
  entry? : Option String := none
deriving Repr, Inhabited

/-- How a session goes on. -/
inductive Progress where
  | goesOn (s : Session)
  /-- It is over, with an error if the input could not be read. -/
  | ends (error? : Option String)
deriving Repr, Inhabited

/-- Whether a text holds nothing but blanks. -/
def isBlankText (s : String) : Bool := (trimmed s).isEmpty

/-- Whether a text is a command. -/
def isCommand (s : String) : Bool := (trimmed s).toList.head? == some ':'

/-- What the help of a session says. -/
def sessionHelp : String := "Enter an expression to evaluate it. An unfinished expression, such as
one ending in an operator or an open parenthesis, continues on the next
line; an empty line ends it.

Commands:
  :tokens   toggle printing tokens before each value
  :ast      toggle printing the fully parenthesized expression before each value
  :help     show this help
  :quit     leave the REPL (also Ctrl-D)"

/-- How a switch is said to stand. -/
def onOff (b : Bool) : String := if b then "on" else "off"

namespace Session

/-- The session that begins on a console. -/
def start (c : Console) : Session :=
  { console := c
    traceTokens := c.settings.traceTokens
    traceTree := c.settings.traceAst }

/-- What a session writes when it begins. -/
def greeting (s : Session) : Output :=
  .line (s.console.styles.header "AQA pseudocode, :help for commands")

/-- The prompt for the next line. -/
def prompt (s : Session) : String :=
  match s.entry? with
  | none => s.console.settings.prompt
  | some _ => "... "

/-- What is shown of a run. -/
def trace (s : Session) : Trace :=
  { tokens := s.traceTokens
    tree? := if s.traceTree then some .line else none }

/-- Obeys a command. -/
def command (s : Session) (word : String) : Output × Progress :=
  match word with
  | ":quit" => ({}, .ends none)
  | ":q" => ({}, .ends none)
  | ":exit" => ({}, .ends none)
  | ":tokens" =>
    (.line ("token trace " ++ onOff !s.traceTokens), .goesOn { s with traceTokens := !s.traceTokens })
  | ":ast" =>
    (.line ("tree trace " ++ onOff !s.traceTree), .goesOn { s with traceTree := !s.traceTree })
  | ":help" => (.line sessionHelp, .goesOn s)
  | ":h" => (.line sessionHelp, .goesOn s)
  | word => (.errorLine ("unknown command " ++ word ++ " (try :help)"), .goesOn s)

/-- What running a source writes. -/
def evaluate (s : Session) (src : String) : Output :=
  s.console.showRun "" s.trace s.console.showValue (runSource "" src)

/-- Takes a complete entry. -/
def submit (s : Session) (src : String) : Output × Progress :=
  let s := { s with entry? := none }
  if isBlankText src then ({}, .goesOn s)
  else if isCommand src then
    let (o, p) := s.command (trimmed src)
    ({ history := [src] } ++ o, p)
  else ({ history := [src] } ++ s.evaluate src, .goesOn s)

/-- Takes the lines of an entry so far: the entry is complete, or goes on. -/
def extend (s : Session) (src : String) : Output × Progress :=
  if !isBlankText src && !isCommand src && (probe src).more then
    ({}, .goesOn { s with entry? := some src })
  else s.submit src

/-- Takes the answer to the prompt. -/
def answer (s : Session) (a : Answer) : Output × Progress :=
  match s.entry?, a with
  | none, .line text => s.extend text
  | none, .abort => ({}, .goesOn s)
  | none, .endOfInput => (.line "", .ends none)
  | some src, .line text =>
    if isBlankText text then s.submit src else s.extend (src ++ (probe src).separator ++ text)
  | some _, .abort => ({}, .goesOn { s with entry? := none })
  | some src, .endOfInput => s.submit src
  | _, .failure message => ({}, .ends (some message))

/-- What is written before a prompt, and the prompt; after the last answer there
is no prompt. -/
structure Turn where
  output : Output
  prompt? : Option String
deriving Repr, Inhabited

/-- The turns of a session that has written `before` since its last prompt, up to
its end or to the end of the answers, and the error it ends with. -/
def turns (s : Session) (before : Output) : List Answer → List Turn × Option String
  | [] => ([⟨before, none⟩], none)
  | a :: rest =>
    let shown : Turn := ⟨before, some s.prompt⟩
    match s.answer a with
    | (o, .ends error?) => ([shown, ⟨o, none⟩], error?)
    | (o, .goesOn next) =>
      let (ts, error?) := next.turns o rest
      (shown :: ts, error?)

/-- The turns of a whole session. After the answers given, the input is at its
end: at most two more answers say so, one to end an entry and one to end the
session. -/
def transcript (c : Console) (answers : List Answer) : List Turn × Option String :=
  (start c).turns (start c).greeting (answers ++ [.endOfInput, .endOfInput])

end Session

end Pseudocode
