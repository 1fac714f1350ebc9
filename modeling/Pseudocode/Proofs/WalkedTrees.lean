/-
# Walks and the tokens of a tree

A node of a tree has an address: the numbers of the operands on the way to it from the root
(`Expr.at?`). The walk that rejects nothing meets each address once, in lexicographic order
(`Expr.addresses`). A visitor may reject nodes, and may have in mind what it has seen so far
(`Expr.walkWith`); the walk then meets just those nodes no proper ancestor of which it has
rejected, in the same order (`Expr.walk_eq`, `Expr.walkWith_eq`).

Parsing makes one node of each token, parentheses and newlines apart. Read from left to right,
an operator between its operands, the nodes of a tree have the places of its tokens one
by one (`Derives.map_pos_inOrder`). As the places of tokens increase, so do those of the nodes:
no two are the same, and an operator stands between its operands (`walks_match_tokens`).

Key definitions: `Expr.at?`, `Expr.addresses`, `Expr.Unrejected`, `Expr.inOrder`.
Key theorems: `Expr.mem_addresses_iff`, `Expr.pairwise_addresses`, `Expr.walk_eq`,
`Expr.walkWith_eq`, `Derives.map_pos_inOrder`, `walks_match_tokens`.
-/
import Mathlib.Data.List.Infix
import Pseudocode.Expr.Walk
import Pseudocode.Proofs.SourceExtension

namespace Pseudocode

namespace Expr

/-! ### Addresses -/

/-- The operands of a node, the missing ones included. -/
def operands : Expr → List Expr
  | unary _ _ x => [x]
  | binary _ _ x y => [x, y]
  | _ => []

/-- The node itself. An operand that is missing is none. -/
def node? : Expr → Option Expr
  | hole => none
  | e => some e

/-- The node at an address. -/
def at? (e : Expr) : List Nat → Option Expr
  | [] => e.node?
  | i :: a => e.operands[i]?.bind (·.at? a)

/-- The addresses of the nodes, each before those below it, and those below the left operand
first. -/
def addresses : Expr → List (List Nat)
  | unary _ _ x => [] :: x.addresses.map (0 :: ·)
  | binary _ _ x y => [] :: (x.addresses.map (0 :: ·) ++ y.addresses.map (1 :: ·))
  | hole => []
  | _ => [[]]

theorem mem_addresses_iff (e : Expr) : ∀ a, a ∈ e.addresses ↔ (e.at? a).isSome := by
  induction e with
  | lit p v => rintro (_ | ⟨i, a⟩) <;> simp [addresses, at?, node?, operands]
  | unary p op x ih =>
    rintro (_ | ⟨_ | i, a⟩)
    · simp [addresses, at?, node?]
    · simpa [addresses, at?, operands] using ih a
    · simp [addresses, at?, operands]
  | binary p op x y ihx ihy =>
    rintro (_ | ⟨_ | _ | i, a⟩)
    · simp [addresses, at?, node?]
    · simpa [addresses, at?, operands] using ihx a
    · simpa [addresses, at?, operands] using ihy a
    · simp [addresses, at?, operands]
  | hole => rintro (_ | ⟨i, a⟩) <;> simp [addresses, at?, node?, operands]
  | foreign name => rintro (_ | ⟨i, a⟩) <;> simp [addresses, at?, node?, operands]

theorem pairwise_map_cons {as : List (List Nat)} (i : Nat) (h : as.Pairwise (· < ·)) :
    (as.map (i :: ·)).Pairwise (· < ·) :=
  List.pairwise_map.mpr (h.imp fun hab => List.cons_lt_cons_iff.mpr (.inr ⟨rfl, hab⟩))

/-- The addresses are in lexicographic order. -/
theorem pairwise_addresses (e : Expr) : e.addresses.Pairwise (· < ·) := by
  induction e with
  | lit p v => exact List.pairwise_singleton _ _
  | unary p op x ih =>
    refine List.pairwise_cons.mpr ⟨fun b hb => ?_, pairwise_map_cons 0 ih⟩
    obtain ⟨a, -, rfl⟩ := List.mem_map.mp hb
    exact List.nil_lt_cons _ _
  | binary p op x y ihx ihy =>
    refine List.pairwise_cons.mpr ⟨fun b hb => ?_, List.pairwise_append.mpr
      ⟨pairwise_map_cons 0 ihx, pairwise_map_cons 1 ihy, fun b hb c hc => ?_⟩⟩
    · obtain hb | hb := List.mem_append.mp hb <;>
      · obtain ⟨a, -, rfl⟩ := List.mem_map.mp hb
        exact List.nil_lt_cons _ _
    · obtain ⟨a, -, rfl⟩ := List.mem_map.mp hb
      obtain ⟨d, -, rfl⟩ := List.mem_map.mp hc
      exact List.cons_lt_cons_iff.mpr (.inl Nat.zero_lt_one)
  | hole => exact List.Pairwise.nil
  | foreign name => exact List.pairwise_singleton _ _

/-! ### Walks -/

/-- No proper ancestor of the address has been rejected. -/
def Unrejected (verdict : List Nat → Bool) (a : List Nat) : Prop :=
  ∀ b, b <+: a → b ≠ a → verdict b = true

instance (verdict : List Nat → Bool) (a : List Nat) : Decidable (Unrejected verdict a) :=
  decidable_of_iff (∀ b ∈ a.inits, b ≠ a → verdict b = true) (by simp [Unrejected, List.mem_inits])

theorem unrejected_nil (verdict : List Nat → Bool) : Unrejected verdict [] := by
  intro b hb hne
  exact absurd (List.prefix_nil.mp hb) hne

/-- The root is an ancestor of all others. -/
theorem unrejected_cons {verdict : List Nat → Bool} {i : Nat} {a : List Nat} :
    Unrejected verdict (i :: a) ↔ verdict [] = true ∧ Unrejected (fun b => verdict (i :: b)) a := by
  constructor
  · intro h
    refine ⟨h [] List.nil_prefix (by simp), fun b hb hne => ?_⟩
    exact h (i :: b) ((List.prefix_cons_inj i).mpr hb) (by simpa using hne)
  · rintro ⟨hroot, h⟩ b hb hne
    cases b with
    | nil => exact hroot
    | cons j b =>
      obtain ⟨rfl, hba⟩ := List.cons_prefix_cons.mp hb
      exact h b hba (by simpa using hne)

/-- The addresses that a walk meets below one operand. -/
theorem filter_map_cons (verdict : List Nat → Bool) (i : Nat) (as : List (List Nat)) :
    (as.map (i :: ·)).filter (Unrejected verdict ·) =
      if verdict [] then (as.filter (Unrejected (fun b => verdict (i :: b)) ·)).map (i :: ·) else [] := by
  rw [List.filter_map]
  by_cases h : verdict [] = true
  · simp [Function.comp_def, unrejected_cons, h]
  · simp [Function.comp_def, unrejected_cons, h]

/-- **A walk meets the nodes no proper ancestor of which is rejected**, in the order of their
addresses. -/
theorem walk_eq (accepts : Expr → Bool) (e : Expr) : (e.walk accepts).map some =
    (e.addresses.filter (Unrejected (fun b => (e.at? b).any accepts) ·)).map e.at? := by
  induction e with
  | lit p v => simp [walk, addresses, unrejected_nil, at?, node?]
  | unary p op x ih =>
    rw [walk, addresses, List.filter_cons_of_pos (by simpa using unrejected_nil _), filter_map_cons]
    by_cases h : accepts (unary p op x)
    · simp [at?, node?, h, ih, operands]
    · simp [at?, node?, h]
  | binary p op x y ihx ihy =>
    rw [walk, addresses, List.filter_cons_of_pos (by simpa using unrejected_nil _), List.filter_append,
      filter_map_cons, filter_map_cons]
    by_cases h : accepts (binary p op x y)
    · simp [at?, node?, h, ihx, ihy, operands, Function.comp_def]
    · simp [at?, node?, h]
  | hole => rfl
  | foreign name => simp [walk, addresses, unrejected_nil, at?, node?]

@[simp] theorem nodes_unary (p : Pos) (op : TokenKind) (x : Expr) :
    (unary p op x).nodes = unary p op x :: x.nodes := rfl

@[simp] theorem nodes_binary (p : Pos) (op : TokenKind) (x y : Expr) :
    (binary p op x y).nodes = binary p op x y :: (x.nodes ++ y.nodes) := rfl

/-- **All nodes are met once if none is rejected.** -/
theorem map_some_nodes (e : Expr) : e.nodes.map some = e.addresses.map e.at? := by
  induction e with
  | lit p v => rfl
  | unary p op x ih => simp [addresses, at?, node?, ih, operands]
  | binary p op x y ihx ihy => simp [addresses, at?, node?, ihx, ihy, operands, Function.comp_def]
  | hole => rfl
  | foreign name => rfl

/-- What a visitor says of nodes that it is shown one after the other. -/
def answers {σ : Type} (visit : σ → Expr → Bool × σ) : List Expr → σ → List (Expr × Bool) × σ
  | [], s => ([], s)
  | n :: ns, s =>
    ((n, (visit s n).1) :: (answers visit ns (visit s n).2).1, (answers visit ns (visit s n).2).2)

section

variable {σ : Type} (visit : σ → Expr → Bool × σ)

theorem answers_append (ns ms : List Expr) : ∀ s, answers visit (ns ++ ms) s =
    ((answers visit ns s).1 ++ (answers visit ms (answers visit ns s).2).1,
      (answers visit ms (answers visit ns s).2).2) := by
  induction ns with
  | nil => exact fun _ => rfl
  | cons n ns ih => exact fun s => by simp [answers, ih]

/-- What is said of the nodes met is what the visitor says of them, in their order. -/
theorem answers_walkWith (e : Expr) : ∀ s,
    answers visit ((e.walkWith visit s).1.map Prod.fst) s = e.walkWith visit s := by
  induction e with
  | lit p v => exact fun _ => rfl
  | unary p op x ih =>
    intro s
    rcases hv : visit s (unary p op x) with ⟨_ | _, s'⟩
    · simp [walkWith, answers, hv]
    · simp [walkWith, answers, hv, ih]
  | binary p op x y ihx ihy =>
    intro s
    rcases hv : visit s (binary p op x y) with ⟨_ | _, s'⟩
    · simp [walkWith, answers, hv]
    · simp [walkWith, answers, hv, answers_append, ihx, ihy]
  | hole => exact fun _ => rfl
  | foreign name => exact fun _ => rfl

/-- A visitor that has nothing in mind. -/
theorem walk_eq_walkWith (accepts : Expr → Bool) (s : σ) (e : Expr) :
    e.walkWith (fun s n => (accepts n, s)) s = ((e.walk accepts).map fun n => (n, accepts n), s) := by
  induction e with
  | lit p v => rfl
  | unary p op x ih =>
    cases h : accepts (unary p op x) <;> simp [walkWith, walk, h, ih]
  | binary p op x y ihx ihy =>
    cases h : accepts (binary p op x y) <;> simp [walkWith, walk, h, ihx, ihy]
  | hole => rfl
  | foreign name => rfl

/-- What was said of the nodes below two operands, and of the root. -/
def joinVerdicts (root : Bool) (left right : List Nat → Bool) : List Nat → Bool
  | [] => root
  | 0 :: a => left a
  | _ :: a => right a

/-- **A walk with something in mind meets the nodes no proper ancestor of which it has rejected**,
in the order of their addresses. -/
theorem walkWith_eq (e : Expr) : ∀ s, ∃ verdict : List Nat → Bool,
    (e.walkWith visit s).1.map (fun v => (some v.1, v.2)) =
      (e.addresses.filter (Unrejected verdict ·)).map fun a => (e.at? a, verdict a) := by
  induction e with
  | lit p v =>
    intro s
    exact ⟨fun _ => (visit s (lit p v)).1, by simp [walkWith, addresses, unrejected_nil, at?, node?]⟩
  | unary p op x ih =>
    intro s
    rcases hv : visit s (unary p op x) with ⟨go, s'⟩
    obtain ⟨verdict, hx⟩ := ih s'
    refine ⟨joinVerdicts go verdict verdict, ?_⟩
    rw [addresses, List.filter_cons_of_pos (by simpa using unrejected_nil _), filter_map_cons]
    cases go
    · simp [walkWith, hv, joinVerdicts, at?, node?]
    · simp [walkWith, hv, joinVerdicts, at?, node?, operands, hx]
  | binary p op x y ihx ihy =>
    intro s
    rcases hv : visit s (binary p op x y) with ⟨go, s'⟩
    obtain ⟨left, hx⟩ := ihx s'
    obtain ⟨right, hy⟩ := ihy (x.walkWith visit s').2
    refine ⟨joinVerdicts go left right, ?_⟩
    rw [addresses, List.filter_cons_of_pos (by simpa using unrejected_nil _), List.filter_append,
      filter_map_cons, filter_map_cons]
    cases go
    · simp [walkWith, hv, joinVerdicts, at?, node?]
    · simp [walkWith, hv, joinVerdicts, at?, node?, operands, hx, hy, Function.comp_def]
  | hole => exact fun _ => ⟨fun _ => true, rfl⟩
  | foreign name =>
    intro s
    exact ⟨fun _ => (visit s (foreign name)).1, by simp [walkWith, addresses, unrejected_nil, at?, node?]⟩

end

/-! ### Nodes from left to right -/

/-- The nodes of a tree, a prefix operator before its operand and a binary operator between its
operands. -/
def inOrder : Expr → List Expr
  | unary p op x => unary p op x :: x.inOrder
  | binary p op x y => x.inOrder ++ binary p op x y :: y.inOrder
  | hole => []
  | e => [e]

theorem perm_nodes_inOrder (e : Expr) : e.inOrder.Perm e.nodes := by
  induction e with
  | lit p v => exact .refl _
  | unary p op x ih => exact .cons _ ih
  | binary p op x y ihx ihy => exact List.perm_middle.trans (.cons _ (ihx.append ihy))
  | hole => exact .refl _
  | foreign name => exact .refl _

/-- What is below a node stands together. -/
theorem inOrder_infix {n : Expr} (e : Expr) (h : n ∈ e.nodes) : n.inOrder <:+: e.inOrder := by
  induction e with
  | lit p v =>
    obtain rfl := List.mem_singleton.mp h
    exact List.infix_rfl
  | unary p op x ih =>
    obtain rfl | h := List.mem_cons.mp h
    · exact List.infix_rfl
    · exact (ih h).trans (List.infix_cons List.infix_rfl)
  | binary p op x y ihx ihy =>
    obtain rfl | h := List.mem_cons.mp h
    · exact List.infix_rfl
    obtain h | h := List.mem_append.mp h
    · exact (ihx h).trans (List.prefix_append _ _).isInfix
    · exact (ihy h).trans ((List.infix_cons List.infix_rfl).trans (List.suffix_append _ _).isInfix)
  | hole => simp [nodes, walk] at h
  | foreign name =>
    obtain rfl := List.mem_singleton.mp h
    exact List.infix_rfl

end Expr

/-! ### Nodes and tokens -/

/-- The kinds of tokens that make no node. -/
def bareKinds : List TokenKind := [.leftParen, .rightParen, .newline, .eof]

theorem filter_bareKinds_newlines {ts : List Token} (h : ∀ t ∈ ts, t.kind = .newline) :
    ts.filter (·.kind ∉ bareKinds) = [] := by
  refine List.filter_eq_nil_iff.mpr fun t ht => ?_
  simp [h t ht, bareKinds]

/-- **From left to right the nodes have the places of the tokens**, parentheses apart. -/
theorem Derives.map_pos_inOrder {n : Nonterminal} {u : List Token} {x : Expr} (d : Derives n u x) :
    x.inOrder.map Expr.pos = (u.filter (·.kind ∉ bareKinds)).map Token.pos := by
  induction d with
  | tighter _ _ ih => exact ih
  | @operation n u v x y t _ ht _ ihx ihy =>
    have hk : t.kind ∉ bareKinds := by
      have hprec := (Nonterminal.mem_operators_iff.mp ht).1
      intro hbare
      simp only [bareKinds, List.mem_cons, List.not_mem_nil, or_false] at hbare
      rcases hbare with hk | hk | hk | hk <;> simp [hk, TokenKind.precedence] at hprec
    simp [Expr.inOrder, ihx, ihy, hk, Expr.pos]
  | @prefixed u x t ht _ ih =>
    have hk : t.kind ∉ bareKinds := by
      intro hbare
      simp only [bareKinds, prefixOperators, List.mem_cons, List.not_mem_nil, or_false] at hbare ht
      rcases hbare with hk | hk | hk | hk <;> simp [hk] at ht
    simp [Expr.inOrder, ih, hk, Expr.pos]
  | literal ht => simp [Expr.inOrder, ht, bareKinds, Expr.pos]
  | @parens l r u x hl _ hr ih => simp [ih, hl, hr, bareKinds]

theorem Pos.Before.ne {p q : Pos} (h : p.Before q) : p ≠ q := by
  rintro rfl
  unfold Before at h
  omega

/-- The nodes of a parsed tree have the places of the tokens in their order, and these increase. -/
theorem exists_map_pos_inOrder {file src : String} {x : Expr} (h : parseSource file src = .ok x) :
    ∃ ts, scan file src = .ok ts ∧
      x.inOrder.map Expr.pos = (ts.filter (·.kind ∉ bareKinds)).map Token.pos ∧
      x.inOrder.Pairwise fun m n => m.pos.Before n.pos := by
  obtain ⟨ts, hscan, hparse⟩ := parseSource_eq_ok_iff.mp h
  obtain ⟨ps, w, hsplit, hts⟩ := scan_eq_ok_iff.mp hscan
  have hterm : Terminated ts := hsplit.terminated (hts ▸ map_kind_tokensOf file w ps [])
  obtain ⟨m, u, n, stop, rfl, hm, d, hn, hstop⟩ := (parseTokens_eq_ok_iff hterm).mp hparse
  have hplaces : x.inOrder.map Expr.pos =
      ((m ++ u ++ n ++ [stop]).filter (·.kind ∉ bareKinds)).map Token.pos := by
    have hlast : stop.kind ∈ bareKinds := by simp [hstop, bareKinds]
    simp only [d.map_pos_inOrder, List.filter_append, filter_bareKinds_newlines hm,
      filter_bareKinds_newlines hn, List.nil_append, List.append_nil]
    simp [hlast]
  have hbefore : (m ++ u ++ n ++ [stop]).Pairwise fun s t => s.pos.Before t.pos :=
    hts ▸ pairwise_before_tokensOf file hsplit []
  have hpair : (x.inOrder.map Expr.pos).Pairwise Pos.Before := by
    rw [hplaces]
    exact List.pairwise_map.mpr (hbefore.sublist List.filter_sublist)
  exact ⟨_, hscan, hplaces, List.pairwise_map.mp hpair⟩

/-- Where places increase from left to right, an operator stands between its operands. -/
theorem before_of_mem_nodes {x : Expr} (h : x.inOrder.Pairwise fun m n => m.pos.Before n.pos) :
    (∀ p op y z, .binary p op y z ∈ x.nodes →
      (∀ n ∈ y.nodes, n.pos.Before p) ∧ ∀ n ∈ z.nodes, p.Before n.pos) ∧
    ∀ p op y, .unary p op y ∈ x.nodes → ∀ n ∈ y.nodes, p.Before n.pos := by
  constructor
  · intro p op y z hnode
    have hpair := h.sublist (Expr.inOrder_infix x hnode).sublist
    rw [Expr.inOrder, List.pairwise_append, List.pairwise_cons] at hpair
    obtain ⟨-, ⟨hright, -⟩, hleft⟩ := hpair
    exact ⟨fun n hn => hleft n (y.perm_nodes_inOrder.mem_iff.mpr hn) _ List.mem_cons_self,
      fun n hn => hright n (z.perm_nodes_inOrder.mem_iff.mpr hn)⟩
  · intro p op y hnode n hn
    have hpair := h.sublist (Expr.inOrder_infix x hnode).sublist
    exact (List.pairwise_cons.mp hpair).1 n (y.perm_nodes_inOrder.mem_iff.mpr hn)

/-- **Parsing and walking neither lose nor repeat a token.** In a tree that was parsed the places
of the nodes are all different, they are the places of the tokens that are no parentheses,
newlines or end tokens, and each operator stands between its operands. In any tree a walk that
rejects nothing meets each node once; and a walk meets just those nodes no proper ancestor of
which is rejected, in the same order. This holds also if the visitor has in mind what it has
been shown: the nodes met and what is said of them are then what the visitor says of these nodes
one after the other. -/
theorem walks_match_tokens (file src : String) (e : Expr) :
    (∀ x, parseSource file src = .ok x → ∃ ts, scan file src = .ok ts ∧
      (x.nodes.map Expr.pos).Nodup ∧
      (∀ p, p ∈ x.nodes.map Expr.pos ↔ ∃ t ∈ ts, t.kind ∉ bareKinds ∧ t.pos = p) ∧
      (∀ p op y z, .binary p op y z ∈ x.nodes →
        (∀ n ∈ y.nodes, n.pos.Before p) ∧ ∀ n ∈ z.nodes, p.Before n.pos) ∧
      ∀ p op y, .unary p op y ∈ x.nodes → ∀ n ∈ y.nodes, p.Before n.pos) ∧
    (e.addresses.Pairwise (· < ·) ∧ (∀ a, a ∈ e.addresses ↔ (e.at? a).isSome) ∧
      e.nodes.map some = e.addresses.map e.at?) ∧
    (∀ accepts : Expr → Bool, (e.walk accepts).map some =
      (e.addresses.filter (Expr.Unrejected (fun b => (e.at? b).any accepts) ·)).map e.at?) ∧
    (∀ (σ : Type) (visit : σ → Expr → Bool × σ) (s : σ),
      Expr.answers visit ((e.walkWith visit s).1.map Prod.fst) s = e.walkWith visit s ∧
      ∃ verdict : List Nat → Bool, (e.walkWith visit s).1.map (fun v => (some v.1, v.2)) =
        (e.addresses.filter (Expr.Unrejected verdict ·)).map fun a => (e.at? a, verdict a)) ∧
    ∀ (σ : Type) (accepts : Expr → Bool) (s : σ), e.walkWith (fun s n => (accepts n, s)) s =
      ((e.walk accepts).map fun n => (n, accepts n), s) := by
  refine ⟨fun x hx => ?_, ⟨e.pairwise_addresses, e.mem_addresses_iff, e.map_some_nodes⟩,
    fun accepts => e.walk_eq accepts, fun σ visit s => ⟨Expr.answers_walkWith visit e s,
      Expr.walkWith_eq visit e s⟩, fun σ accepts s => Expr.walk_eq_walkWith accepts s e⟩
  obtain ⟨ts, hscan, hplaces, hpair⟩ := exists_map_pos_inOrder hx
  have hperm : (x.inOrder.map Expr.pos).Perm (x.nodes.map Expr.pos) := x.perm_nodes_inOrder.map _
  refine ⟨ts, hscan, hperm.nodup_iff.mp ?_, fun p => ?_, before_of_mem_nodes hpair⟩
  · exact List.pairwise_map.mpr (hpair.imp Pos.Before.ne)
  · rw [← hperm.mem_iff, hplaces, List.mem_map]
    simp [and_assoc]

/-- The tree of `((-1) + 2)`. -/
def negatedSum : Expr := .binary {} .plus (.unary {} .minus (.lit {} (.int 1))) (.lit {} (.int 2))

/-- Its source has nine tokens and four nodes; a walk that rejects the minus sign does not meet
the first literal. -/
theorem negatedSum_matches_tokens : (∃ x ts, parseSource "in" negatedSum.source = .ok x ∧
      scan "in" negatedSum.source = .ok ts ∧ (x.nodes.map Expr.pos).Nodup ∧
      ∀ p, p ∈ x.nodes.map Expr.pos ↔ ∃ t ∈ ts, t.kind ∉ bareKinds ∧ t.pos = p) ∧
    negatedSum.addresses = [[], [0], [0, 0], [1]] ∧
    (negatedSum.walk fun | .unary .. => false | _ => true).map some =
      [[], [0], [1]].map negatedSum.at? := by
  obtain ⟨hparsed, -, hwalk, -⟩ := walks_match_tokens "in" negatedSum.source negatedSum
  have hone : (0 : Int64) ≤ 1 := by decide
  have htwo : (0 : Int64) ≤ 2 := by decide
  have hprintable : negatedSum.Printable := ⟨by decide, ⟨by decide, hone⟩, htwo⟩
  obtain ⟨x, hx, -⟩ := exists_parseSource_source "in" hprintable
  obtain ⟨ts, hscan, hnodup, hplaces, -⟩ := hparsed x hx
  exact ⟨⟨x, ts, hx, hscan, hnodup, hplaces⟩, rfl, (hwalk _).trans rfl⟩

end Pseudocode
