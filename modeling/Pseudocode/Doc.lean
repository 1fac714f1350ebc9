/-
# Documents

A document is nothing, a text, or a record of named documents. Expressions are
dumped as documents, one record for each node with its fields in alphabetical
order, and documents are written as JSON or as YAML.

Key definitions: `Doc`, `Expr.toDoc`.
-/
import Pseudocode.Expr

namespace Pseudocode

/-- A document. -/
inductive Doc where
  | null
  | text (s : String)
  | record (fields : List (String × Doc))
deriving Repr, Inhabited

/-- The document of an expression. -/
def Expr.toDoc : Expr → Doc
  | .lit p v =>
    .record [("kind", .text v.kind.name), ("pos", .text p.text), ("type", .text "BasicLit"),
      ("value", .text v.display)]
  | .unary p op x =>
    .record [("op", .text op.spelling), ("pos", .text p.text), ("type", .text "UnaryOp"),
      ("x", x.toDoc)]
  | .binary p op x y =>
    .record [("op", .text op.spelling), ("pos", .text p.text), ("type", .text "BinaryOp"),
      ("x", x.toDoc), ("y", y.toDoc)]
  | .hole => .null
  | .foreign _ => .record [("type", .text "unknown")]

end Pseudocode
