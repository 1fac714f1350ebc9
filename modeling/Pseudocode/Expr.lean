/-
# Expressions

An expression is a literal or an operator applied to one or two operands, and
each node remembers the place of the token that made it. Trees built by hand
may also lack an operand or hold a node of some other library, which the
printers name and the evaluator refuses.

Key definitions: `Expr`, `Expr.pos`.
-/
import Pseudocode.Token

namespace Pseudocode

/-- An expression tree. -/
inductive Expr where
  /-- A literal. -/
  | lit (pos : Pos) (value : Value)
  /-- A prefix operator and its operand. -/
  | unary (pos : Pos) (op : TokenKind) (x : Expr)
  /-- A binary operator and its operands. -/
  | binary (pos : Pos) (op : TokenKind) (x y : Expr)
  /-- An operand that is missing. -/
  | hole
  /-- A node of a kind this library does not know, by its name. -/
  | foreign (name : String)
deriving Repr, Inhabited

namespace Expr

/-- The place of the token that made the node. -/
def pos : Expr → Pos
  | lit p _ => p
  | unary p _ _ => p
  | binary p _ _ _ => p
  | hole => {}
  | foreign _ => {}

end Expr

end Pseudocode
