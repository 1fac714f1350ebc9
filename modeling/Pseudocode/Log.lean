/-
# Log lines

A log record has a level, a message and named attributes, and is written on one
line of `name=value` pairs. A value is quoted when it is empty or holds a
character that would break the line apart: a blank, a quote, an equals sign or
anything that is not printable.

Key definitions: `Level`, `Record`, `Record.line`, `Event.record?`.
-/
import Pseudocode.Pipeline
import Pseudocode.Text.Blank

namespace Pseudocode

/-- How much a record matters, from least to most. -/
inductive Level where
  | debug
  | info
  | warn
  | error
deriving Repr, DecidableEq, Inhabited

namespace Level

/-- The name shown in log lines. -/
def name : Level → String
  | debug => "DEBUG"
  | info => "INFO"
  | warn => "WARN"
  | error => "ERROR"

/-- The place of a level in the order of the levels. -/
def rank : Level → Nat
  | debug => 0
  | info => 1
  | warn => 2
  | error => 3

/-- Whether a record of a level is written when the least level written is
`least`. -/
def passes (level least : Level) : Bool := least.rank ≤ level.rank

end Level

/-- A log record. -/
structure Record where
  level : Level
  message : String
  attributes : List (String × String)
deriving Repr, Inhabited

/-- Whether a character keeps a value from standing without quotes. -/
def needsQuotes (c : Char) : Bool :=
  if c.toNat < 128 then c ≤ ' ' || c = '"' || c = '='
  else c = replacementChar || isBlank c || !isPrintable c

/-- A value in a log line. -/
def logValue (s : String) : String :=
  if s.isEmpty || s.toList.any needsQuotes then quoteText s else s

/-- The line of a record, with its newline. -/
def Record.line (r : Record) : String :=
  let pairs := ("level", r.level.name) :: ("msg", r.message) :: r.attributes
  " ".intercalate (pairs.map fun (name, value) => name ++ "=" ++ logValue value) ++ "\n"

/-- The record of an event, if it is one that is logged. The attributes in
`scope` come first, those in `timing` last. -/
def Event.record? (scope timing : List (String × String)) : Event → Option Record
  | .scanned count => some (stage "scanned" .scanner [("tokens", toString count)])
  | .parsed => some (stage "parsed" .parser [])
  | .evaluated kind => some (stage "evaluated" .interpreter [("kind", kind.name)])
  | .tokens _ => none
  | .tree _ => none
where
  stage (message : String) (s : Stage) (details : List (String × String)) : Record :=
    ⟨.debug, message, scope ++ ("stage", s.name) :: details ++ timing⟩

end Pseudocode
