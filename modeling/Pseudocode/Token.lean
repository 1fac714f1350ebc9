/-
# Tokens

A token is a classified piece of source text with the place of its first
character. The kinds form a closed vocabulary with fixed codes: end of input,
newline, literals, identifiers, operators, parentheses and keywords. Codes
beyond the vocabulary can be named but are never scanned.

Key definitions: `TokenKind`, `TokenKind.precedence`, `Token`, `wordKind`.
-/
import Pseudocode.Position
import Pseudocode.Value

namespace Pseudocode

/-- The kinds of tokens. -/
inductive TokenKind where
  /-- The end of the input. -/
  | eof
  | newline
  /-- A number, a truth value or a quoted text. -/
  | literal
  | identifier
  /-- The arrow `<-`. -/
  | assign
  | plus
  | minus
  | times
  | divide
  | intDiv
  | modulo
  | less
  | greater
  | equal
  | notEqual
  | lessEqual
  | greaterEqual
  | andOp
  | orOp
  | notOp
  | leftParen
  | rightParen
  | constant
  | repeatWord
  | untilWord
  | whileWord
  | endWhile
  | forWord
  | toWord
  | inWord
  | endFor
  | ifWord
  | thenWord
  | elseWord
  | endIf
  | output
  /-- The kind with code `36 + offset`. -/
  | unknown (offset : Nat)
deriving Repr, DecidableEq, Inhabited

namespace TokenKind

/-- The vocabulary, in the order of the codes from zero. -/
def vocabulary : List TokenKind :=
  [eof, newline, literal, identifier, assign, plus, minus, times, divide, intDiv, modulo, less,
    greater, equal, notEqual, lessEqual, greaterEqual, andOp, orOp, notOp, leftParen, rightParen,
    constant, repeatWord, untilWord, whileWord, endWhile, forWord, toWord, inWord, endFor, ifWord, thenWord, elseWord,
    endIf, output]

/-- The kind with a numeric code. -/
def ofCode (n : Nat) : TokenKind :=
  vocabulary.getD n (unknown (n - vocabulary.length))

/-- The numeric code of a kind. -/
def code : TokenKind → Nat
  | unknown i => vocabulary.length + i
  | k => vocabulary.idxOf k

/-- The spelling of the kind in source text, or a name for kinds that have
none. -/
def spelling : TokenKind → String
  | eof => "EOF"
  | newline => "newline"
  | literal => "literal"
  | identifier => "identifier"
  | assign => "<-"
  | plus => "+"
  | minus => "-"
  | times => "*"
  | divide => "/"
  | intDiv => "DIV"
  | modulo => "MOD"
  | less => "<"
  | greater => ">"
  | equal => "="
  | notEqual => "!="
  | lessEqual => "<="
  | greaterEqual => ">="
  | andOp => "AND"
  | orOp => "OR"
  | notOp => "NOT"
  | leftParen => "("
  | rightParen => ")"
  | constant => "CONSTANT"
  | repeatWord => "REPEAT"
  | untilWord => "UNTIL"
  | whileWord => "WHILE"
  | endWhile => "ENDWHILE"
  | forWord => "FOR"
  | toWord => "TO"
  | inWord => "IN"
  | endFor => "ENDFOR"
  | ifWord => "IF"
  | thenWord => "THEN"
  | elseWord => "ELSE"
  | endIf => "ENDIF"
  | output => "OUTPUT"
  | unknown i => "token(" ++ toString (36 + i) ++ ")"

/-- The kinds spelled as a reserved word. -/
def keywords : List TokenKind :=
  [constant, intDiv, modulo, andOp, orOp, notOp, repeatWord, untilWord, whileWord, endWhile, forWord, toWord, inWord,
    endFor, ifWord, thenWord, elseWord, endIf, output]

/-- Whether the kind is spelled as a reserved word. -/
def isKeyword (k : TokenKind) : Bool := keywords.contains k

/-- Whether the kind is the assignment arrow or an arithmetic, comparison or
logical operator. -/
def isOperator : TokenKind → Bool
  | assign | plus | minus | times | divide | intDiv | modulo | less | greater | equal | notEqual
  | lessEqual | greaterEqual | andOp | orOp | notOp => true
  | _ => false

/-- How tightly the kind binds as a binary operator: equality loosest, then
comparison, sums, and products; zero for a kind that is none. -/
def precedence : TokenKind → Nat
  | equal | notEqual => 1
  | less | lessEqual | greater | greaterEqual => 2
  | plus | minus => 3
  | times | divide => 4
  | _ => 0

end TokenKind

/-- A token: its kind, its place, and what it carries. -/
structure Token where
  kind : TokenKind := .eof
  pos : Pos := {}
  /-- The value of a literal. -/
  value : Value := .invalid
  /-- The name of an identifier. -/
  name : String := ""
deriving Repr, Inhabited

namespace Token

/-- A short description: the debug form of a literal, the name of an
identifier, the spelling of the rest. -/
def describe (t : Token) : String :=
  match t.kind with
  | .literal => t.value.debug
  | .identifier => "Ident(" ++ t.name ++ ")"
  | k => k.spelling

end Token

/-- What a word of letters and digits is: a keyword, a truth value, or a name. -/
def wordKind (word : String) : TokenKind :=
  match TokenKind.keywords.find? (·.spelling = word) with
  | some k => k
  | none => if word = "True" || word = "False" then .literal else .identifier

end Pseudocode
