/-
# Walking an expression

The nodes of an expression in the order root, left operand, right operand. A
visitor may reject a node; the nodes below it are then left out. Whether it does may
also depend on what it has seen so far.

Key definitions: `Expr.walk`, `Expr.walkWith`, `Expr.nodes`.
-/
import Pseudocode.Expr

namespace Pseudocode

namespace Expr

/-- The nodes that a visitor sees who goes below those nodes only that it
accepts. -/
def walk (accepts : Expr → Bool) : Expr → List Expr
  | lit p v => [lit p v]
  | unary p op x =>
    unary p op x :: if accepts (unary p op x) then x.walk accepts else []
  | binary p op x y =>
    binary p op x y :: if accepts (binary p op x y) then x.walk accepts ++ y.walk accepts else []
  | hole => []
  | foreign name => [foreign name]

/-- A walk whose visitor has something in mind: shown a node, it says whether the walk goes on
below it, and has something else in mind. The result is the nodes it was shown with what it said
of them, and what it has in mind at the end. -/
def walkWith {σ : Type} (visit : σ → Expr → Bool × σ) : Expr → σ → List (Expr × Bool) × σ
  | hole, s => ([], s)
  | unary p op x, s =>
    let (go, s) := visit s (unary p op x)
    let (below, s) := if go then x.walkWith visit s else ([], s)
    ((unary p op x, go) :: below, s)
  | binary p op x y, s =>
    let (go, s) := visit s (binary p op x y)
    let (left, s) := if go then x.walkWith visit s else ([], s)
    let (right, s) := if go then y.walkWith visit s else ([], s)
    ((binary p op x y, go) :: (left ++ right), s)
  | e, s => ([(e, (visit s e).1)], (visit s e).2)

/-- All nodes. -/
def nodes (e : Expr) : List Expr := e.walk fun _ => true

end Expr

end Pseudocode
