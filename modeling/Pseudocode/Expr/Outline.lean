/-
# Expressions as an outline

An outline has one line for each node, indented by its depth, with the place
and what the node holds; the operands of a binary operator stand under the
labels `X:` and `Y:`.

Key definition: `Expr.outline`.
-/
import Pseudocode.Expr

namespace Pseudocode

/-- A line of an outline at a depth. -/
def outlineLine (depth : Nat) (s : String) : String :=
  String.ofList (List.replicate (2 * depth) ' ') ++ s ++ "\n"

/-- The outline of an expression whose root stands at a depth. -/
def Expr.outlineAt (depth : Nat) : Expr → String
  | .lit p v => outlineLine depth ("BasicLit " ++ p.text ++ " " ++ v.debug)
  | .unary p op x =>
    outlineLine depth ("UnaryOp " ++ p.text ++ " " ++ op.spelling) ++ x.outlineAt (depth + 1)
  | .binary p op x y =>
    outlineLine depth ("BinaryOp " ++ p.text ++ " " ++ op.spelling)
      ++ outlineLine (depth + 1) "X:" ++ x.outlineAt (depth + 2)
      ++ outlineLine (depth + 1) "Y:" ++ y.outlineAt (depth + 2)
  | .hole => ""
  | .foreign name => outlineLine depth ("<" ++ name ++ ">")

/-- The outline of an expression. -/
def Expr.outline (e : Expr) : String := e.outlineAt 0

end Pseudocode
