/-
# Flags

A flag is given by its name after two dashes or by its letter after one. A flag
that takes a text takes what follows an equals sign, or the next word; letters
of switches can stand together, and the text of a letter can follow it at once.
A switch is on when it is given, and may be given a truth value after an equals
sign. Two dashes alone end the flags; all other words are arguments.

Key definitions: `Flag`, `Options`, `FlagFault`, `parseFlags`.
-/
import Pseudocode.Text.Quoted
import Pseudocode.Text.Truth

namespace Pseudocode.CommandLine

/-- The flags. -/
inductive Flag where
  | config
  | verbose
  | noColor
  | help
  | traceTokens
  | traceAst
  | watch
  | format
deriving Repr, DecidableEq, Inhabited

namespace Flag

/-- The name of a flag. -/
def name : Flag → String
  | config => "config"
  | verbose => "verbose"
  | noColor => "no-color"
  | help => "help"
  | traceTokens => "trace-tokens"
  | traceAst => "trace-ast"
  | watch => "watch"
  | format => "format"

/-- The letter of a flag, if it has one. -/
def letter? : Flag → Option Char
  | verbose => some 'v'
  | help => some 'h'
  | watch => some 'w'
  | format => some 'f'
  | _ => none

/-- Whether a flag takes a text. -/
def takesText : Flag → Bool
  | config => true
  | format => true
  | _ => false

/-- How a flag is called in messages. -/
def title (f : Flag) : String :=
  match f.letter? with
  | some c => "-" ++ c.toString ++ ", --" ++ f.name
  | none => "--" ++ f.name

end Flag

/-- What the flags say. -/
structure Options where
  config : String := ""
  verbose : Bool := false
  noColor : Bool := false
  help : Bool := false
  traceTokens : Bool := false
  traceAst : Bool := false
  watch : Bool := false
  format : String := ""
deriving Repr, DecidableEq, Inhabited

/-- What is wrong with the flags. -/
inductive FlagFault where
  | badSyntax (word : String)
  | unknownName (name : String)
  /-- A letter is unknown; the code is that of its first byte. -/
  | unknownLetter (code : Nat) (letters : String)
  | missingText (word : String)
  | missingTextOf (letter : Char) (letters : String)
  | invalidValue (flag : Flag) (value : String)
deriving Repr, DecidableEq, Inhabited

/-- The text of a fault. -/
def FlagFault.message : FlagFault → String
  | badSyntax word => "bad flag syntax: " ++ word
  | unknownName name => "unknown flag: --" ++ name
  | unknownLetter code letters =>
    "unknown shorthand flag: " ++ quoteCodePoint code ++ " in -" ++ letters
  | missingText word => "flag needs an argument: " ++ word
  | missingTextOf letter letters =>
    "flag needs an argument: " ++ quoteCodePoint letter.toNat ++ " in -" ++ letters
  | invalidValue flag value =>
    "invalid argument " ++ quoteText value ++ " for " ++ quoteText flag.title
      ++ " flag: strconv.ParseBool: parsing " ++ quoteText value ++ ": invalid syntax"

/-- Sets a switch. -/
def Options.turn (o : Options) (b : Bool) : Flag → Options
  | .verbose => { o with verbose := b }
  | .noColor => { o with noColor := b }
  | .help => { o with help := b }
  | .traceTokens => { o with traceTokens := b }
  | .traceAst => { o with traceAst := b }
  | .watch => { o with watch := b }
  | .config => o
  | .format => o

/-- Gives a flag a value. -/
def Options.set (o : Options) (f : Flag) (value : String) : Except FlagFault Options :=
  match f with
  | .config => .ok { o with config := value }
  | .format => .ok { o with format := value }
  | f =>
    match truthOf? value with
    | some b => .ok (o.turn b f)
    | none => .error (.invalidValue f value)

/-! ### Words -/

/-- What a word of flags gives: the options, and whether the next word went into
them. -/
abbrev Taken := Except FlagFault (Options × Bool)

/-- The first byte of a character in UTF-8. -/
def leadByte (c : Char) : Nat := (c.toString.toUTF8.toList.head?.map UInt8.toNat).getD 0

/-- Whether letters begin as the flags of a test runner do, which are not for the
program. -/
def isForTests (letters : List Char) : Bool := ['t', 'e', 's', 't', '.'].isPrefixOf letters

/-- Takes letters of flags. -/
def takeLetters (known : List Flag) (next? : Option String) : Options → List Char → Taken
  | o, [] => .ok (o, false)
  | o, c :: cs =>
    if isForTests (c :: cs) then .ok (o, false)
    else match known.find? (·.letter? == some c) with
      | none => .error (.unknownLetter (leadByte c) (String.ofList (c :: cs)))
      | some f =>
        match cs with
        | '=' :: v :: vs => (o.set f (String.ofList (v :: vs))).map (·, false)
        | cs =>
          if !f.takesText then takeLetters known next? (o.turn true f) cs
          else if !cs.isEmpty then (o.set f (String.ofList cs)).map (·, false)
          else match next? with
            | some value => (o.set f value).map (·, true)
            | none => .error (.missingTextOf c (String.ofList (c :: cs)))

/-- Takes the name of a flag, from its two dashes on. -/
def takeName (known : List Flag) (next? : Option String) (o : Options) (word : String) : Taken :=
  let body := word.toList.drop 2
  let name := String.ofList (body.takeWhile (· ≠ '='))
  if body.isEmpty || body.head? == some '-' || body.head? == some '=' then .error (.badSyntax word)
  else match known.find? (·.name = name) with
    | none => .error (.unknownName name)
    | some f =>
      match body.dropWhile (· ≠ '=') with
      | _ :: value => (o.set f (String.ofList value)).map (·, false)
      | [] =>
        if !f.takesText then .ok (o.turn true f, false)
        else match next? with
          | some value => (o.set f value).map (·, true)
          | none => .error (.missingText word)

/-- Whether a word is one of flags. -/
def isFlagWord (word : String) : Bool :=
  match word.toList with
  | '-' :: _ :: _ => true
  | _ => false

/-- Takes a word of flags. -/
def takeWord (known : List Flag) (next? : Option String) (o : Options) (word : String) : Taken :=
  if word.startsWith "--" then takeName known next? o word
  else takeLetters known next? o (word.toList.drop 1)

/-- Takes words one by one; `skip` says that the first went into the flag before
it. The options and the arguments come back. -/
def parseFlags (known : List Flag) :
    Bool → Options → List String → Except FlagFault (Options × List String)
  | _, o, [] => .ok (o, [])
  | true, o, _ :: rest => parseFlags known false o rest
  | false, o, word :: rest =>
    if word = "--" then .ok (o, rest)
    else if isFlagWord word then
      match takeWord known rest.head? o word with
      | .error e => .error e
      | .ok (p, skip) => parseFlags known skip p rest
    else (parseFlags known false o rest).map fun (p, args) => (p, word :: args)

end Pseudocode.CommandLine
