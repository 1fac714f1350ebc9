/-
# Expressions as source text

An expression is written on one line with a pair of parentheses around every
operation, so no rule of precedence is needed to read it. Texts are quoted and
escaped as the scanner reads them.

Key definitions: `quoteSource`, `Value.source`, `Expr.source`.
-/
import Pseudocode.Expr

namespace Pseudocode

/-- A character inside the quotes of a text. -/
def sourceChar (c : Char) : List Char :=
  if c = '\n' then ['\\', 'n']
  else if c = '\'' || c = '\\' then ['\\', c]
  else [c]

/-- A text between single quotes, as the scanner reads it. -/
def quoteSource (s : String) : String :=
  String.ofList ('\'' :: s.toList.flatMap sourceChar ++ ['\''])

/-- A literal as source text. -/
def Value.source : Value → String
  | .text s => quoteSource s
  | v => v.display

/-- A prefix operator as it is written before its operand; a word needs a blank
after it. -/
def prefixSource (op : TokenKind) : String :=
  if op.isKeyword then op.spelling ++ " " else op.spelling

/-- An expression as source text. -/
def Expr.source : Expr → String
  | .lit _ v => v.source
  | .unary _ op x => "(" ++ prefixSource op ++ x.source ++ ")"
  | .binary _ op x y => "(" ++ x.source ++ " " ++ op.spelling ++ " " ++ y.source ++ ")"
  | .hole => "<nil>"
  | .foreign name => "<" ++ name ++ ">"

end Pseudocode
