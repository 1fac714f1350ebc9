/-
# Failures

What goes wrong on the way from a source to its value is a lexical error, a
syntax error, an error of evaluation, or something else with a message only. A
failure may be wrapped any number of times, in a context that puts a message
in front or in a mark of the stage that it came from. Who wants to know what
kind of failure it is, where it happened or in which stage searches the wrapping
from the outside in, and takes the first part that tells.

Key definitions: `Stage`, `Failure`, `Failure.chain`, `Failure.first?`,
`Failure.stage?`, `Failure.pos`, `Failure.message`.
-/
import Pseudocode.Expr.Eval
import Pseudocode.Expr.ParseError
import Pseudocode.Token.ScanError

namespace Pseudocode

/-- The stages from source to value. Codes beyond the three can be named but
never arise. -/
inductive Stage where
  | scanner
  | parser
  | interpreter
  /-- The stage with code `3 + offset`. -/
  | unknown (offset : Nat)
deriving Repr, DecidableEq, Inhabited

namespace Stage

/-- The stage with a numeric code. -/
def ofCode : Nat → Stage
  | 0 => scanner
  | 1 => parser
  | 2 => interpreter
  | n + 3 => unknown n

/-- The name shown in diagnostics. -/
def name : Stage → String
  | scanner => "scanner"
  | parser => "parser"
  | interpreter => "interpreter"
  | unknown n => "Stage(" ++ toString (n + 3) ++ ")"

end Stage

/-- What went wrong, with all its wrapping. -/
inductive Failure where
  | scan (e : ScanError)
  | parse (e : ParseError)
  | runtime (e : RuntimeError)
  /-- Anything else. -/
  | plain (message : String)
  /-- A message in front of another failure. -/
  | context (message : String) (inner : Failure)
  /-- A failure of a stage. -/
  | staged (stage : Stage) (inner : Failure)
deriving Repr, Inhabited

namespace Failure

/-- The failure of an evaluation. -/
def ofEval : EvalError → Failure
  | .runtime e => runtime e
  | .unsupported name => plain (EvalError.unsupported name).message

/-- The whole message. -/
def message : Failure → String
  | scan e => e.message
  | parse e => e.message
  | runtime e => e.message
  | plain m => m
  | context m inner => m ++ ": " ++ inner.message
  | staged _ inner => inner.message

/-- The message without the place. A context hides what is inside it. -/
def detail : Failure → String
  | scan e => e.detail
  | parse e => e.detail
  | runtime e => e.detail
  | staged _ inner => inner.detail
  | f => f.message

/-- The failure inside all wrapping. -/
def root : Failure → Failure
  | context _ inner => inner.root
  | staged _ inner => inner.root
  | f => f

/-- The failure and all that it wraps, from the outside in. -/
def chain : Failure → List Failure
  | context m inner => context m inner :: inner.chain
  | staged s inner => staged s inner :: inner.chain
  | f => [f]

/-- What the first part of the chain that `select` picks gives. -/
def first? {α : Type} (select : Failure → Option α) (f : Failure) : Option α :=
  f.chain.findSome? select

/-- The first lexical error, if there is one. -/
def scanError? : Failure → Option ScanError :=
  first? fun
    | scan e => some e
    | _ => none

/-- The first syntax error, if there is one. -/
def parseError? : Failure → Option ParseError :=
  first? fun
    | parse e => some e
    | _ => none

/-- The first error of evaluation, if there is one. -/
def runtimeError? : Failure → Option RuntimeError :=
  first? fun
    | runtime e => some e
    | _ => none

/-- The outermost failure that is marked with a stage, if there is one. -/
def marked? : Failure → Option Failure :=
  first? fun
    | staged s inner => some (staged s inner)
    | _ => none

/-- The stage of the outermost mark, if there is one. -/
def stage? : Failure → Option Stage :=
  first? fun
    | staged s _ => some s
    | _ => none

/-- The place of the failure, or no place where it has none. -/
def pos (f : Failure) : Pos :=
  match f.scanError?, f.parseError?, f.runtimeError? with
  | some e, _, _ => e.pos
  | none, some e, _ => e.pos
  | none, none, some e => e.pos
  | none, none, none => {}

/-- Whether the failure is a division by zero. -/
def isDivisionByZero (f : Failure) : Bool := f.runtimeError?.any RuntimeError.isDivisionByZero

/-- Whether the failure is a mismatch of kinds. -/
def isMismatch (f : Failure) : Bool := f.runtimeError?.any RuntimeError.isMismatch

end Failure

end Pseudocode
