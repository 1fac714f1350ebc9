/-
# Commands

The first word that is neither a flag nor the text of one names the command. A
flag that is not known in front of the command counts as one that takes a text.
The words after the command are its arguments and flags; with a wrong number of
arguments or wrong flags the command is not carried out and its usage is shown.

Key definitions: `Command`, `Command.ofWords`, `Request`, `Request.ofWords`.
-/
import Pseudocode.CommandLine.Flag

namespace Pseudocode.CommandLine

/-- The commands. -/
inductive Command where
  /-- The program without a command. -/
  | root
  | run
  | tokens
  | ast
  | repl
  | version
  | help
deriving Repr, DecidableEq, Inhabited

namespace Command

/-- The word for a command. -/
def name : Command → String
  | root => "aqa"
  | run => "run"
  | tokens => "tokens"
  | ast => "ast"
  | repl => "repl"
  | version => "version"
  | help => "help"

/-- The command with its program. -/
def path : Command → String
  | root => "aqa"
  | c => "aqa " ++ c.name

/-- The command that a word names. -/
def named? (word : String) : Option Command :=
  [run, tokens, ast, repl, version, help].find? (·.name = word)

/-- What the help on a command says. -/
def description : Command → String
  | root => "aqa scans, parses, and evaluates expressions written in AQA exam
pseudocode. Values are integers, floats, booleans (True, False), and
'quoted' text.

Configuration is read from --config, $AQA_CONFIG, or ./aqa.toml."
  | run => "Evaluate the expression in an AQA pseudocode file and print its value.

On failure the diagnostic names the stage (scanner, parser, or interpreter)
and the source position, and the exit status is 1."
  | tokens => "Scan a file and print one token per line: position, kind, and the
literal value or identifier name when the token carries one."
  | ast => "Print the expression tree of an AQA pseudocode file"
  | repl => "Evaluate expressions interactively"
  | version => "Print version information"
  | help => "Help provides help for any command in the application.
Simply type aqa help [path to command] for full details."

/-- The flags that all commands know. -/
def commonFlags : List Flag := [.config, .verbose, .noColor]

/-- The flags that a command knows. -/
def flags (c : Command) : List Flag :=
  .help :: commonFlags ++
    match c with
    | run => [.traceTokens, .traceAst, .watch]
    | ast => [.format]
    | _ => []

/-- How a command is used. -/
def usage (c : Command) : String :=
  let operand := match c with
    | root => " [command]"
    | run => " <file>"
    | tokens => " <file>"
    | ast => " <file>"
    | help => " [command]"
    | _ => ""
  "Usage:\n  " ++ c.path ++ operand ++ " [flags]\n\nFlags:\n"
    ++ String.join (c.flags.map fun f => "  " ++ f.title ++ "\n")

/-! ### Finding the command -/

/-- Whether a word in front of the command is a flag that takes the next word. -/
def takesNext (word : String) : Bool :=
  let cs := word.toList
  !cs.contains '=' &&
    match cs with
    | '-' :: '-' :: name =>
      !(commonFlags.any fun f => f.name.toList == name && !f.takesText)
    | ['-', c] => c.toNat < 0x80 && !(commonFlags.any fun f => f.letter? == some c && !f.takesText)
    | _ => false

/-- The words that are neither flags nor texts of flags. A flag that would take
the last word ends the search. -/
def operands : Bool → List String → List String
  | _, [] => []
  | true, _ :: rest => operands false rest
  | false, word :: rest =>
    if word = "--" then []
    else if takesNext word then (if rest.length ≤ 1 then [] else operands true rest)
    else if word.isEmpty || word.toList.head? == some '-' then operands false rest
    else word :: operands false rest

/-- The words without the first operand that is the word `name`. -/
def dropOperand (name : String) : Bool → List String → List String
  | _, [] => []
  | true, word :: rest => word :: dropOperand name false rest
  | false, word :: rest =>
    if word = "--" then word :: rest
    else if takesNext word then word :: dropOperand name true rest
    else if word = name then rest
    else word :: dropOperand name false rest

/-- The command that words name and the words for it; or the word that names no
command. -/
def ofWords (words : List String) : Except String (Command × List String) :=
  match operands false words with
  | [] => .ok (root, words)
  | word :: _ =>
    match named? word with
    | some c => .ok (c, dropOperand word false words)
    | none => .error word

end Command

/-- The message on a word that names no command. -/
def unknownCommand (word : String) (c : Command) : String :=
  "unknown command " ++ quoteText word ++ " for " ++ quoteText c.path

/-! ### Requests -/

/-- What words ask for. -/
inductive Request where
  /-- Help on a command. -/
  | help (c : Command)
  /-- A command to be carried out. -/
  | perform (c : Command) (o : Options) (arguments : List String)
  /-- Nothing that can be carried out, with the command whose usage is shown. -/
  | refuse (message : String) (usage? : Option Command)
deriving Repr, DecidableEq, Inhabited

/-- What is wrong with the number of arguments of a command. -/
def Command.argumentFault? (c : Command) (arguments : List String) : Option String :=
  let wantsOne := c = .run || c = .tokens || c = .ast
  if wantsOne && arguments.length ≠ 1 then
    some ("accepts 1 arg(s), received " ++ toString arguments.length)
  else if c = .repl || c = .version then arguments.head?.map (unknownCommand · c)
  else none

/-- What words ask for. -/
def Request.ofWords (words : List String) : Request :=
  match Command.ofWords words with
  | .error word => .refuse (unknownCommand word .root) none
  | .ok (c, words) =>
    match parseFlags c.flags false {} words with
    | .error fault => .refuse fault.message (some c)
    | .ok (o, arguments) =>
      if o.help || c = .root then .help c
      else match c.argumentFault? arguments with
        | some message => .refuse message (some c)
        | none => .perform c o arguments

end Pseudocode.CommandLine
