/-
# The grammar of expressions

The grammar has one nonterminal for each level, from loose to tight:

    expression := equality
    equality   := comparison (("=" | "!=") comparison)*
    comparison := term (("<" | "<=" | ">" | ">=") term)*
    term       := factor (("-" | "+") factor)*
    factor     := unary (("*" | "/") unary)*
    unary      := ("NOT" | "AND" | "-") unary | primary
    primary    := LITERAL | "(" expression ")"

A repetition folds to the left, so its last operator is the root. `Derives` is this
grammar together with the tree it builds, in which each node has the place and the
kind or the value of its own token.

The parser accepts exactly this. What the grammar derives is read to its end and
leaves one operand (`Derives.run_eq`): an operator closes what binds as tightly, and
closing early changes nothing (`run_binary_frame`). What the parser has read is always
a number of open parts, each with its own derivation (`Pending`, `step_reads`). As the
parser gives one tree, no tokens have two.

Key definitions: `Nonterminal`, `Derives`, `Pending`, `Reads`.
Key theorems: `Derives.run_eq`, `step_reads`, `run_start_eq_ok_iff`,
`parser_accepts_grammar`.
-/
import Pseudocode.Proofs.ParserState

namespace Pseudocode

open ParserState TokenStream

/-- The levels of the grammar. -/
inductive Nonterminal where
  | expression
  | equality
  | comparison
  | term
  | factor
  | unary
  | primary
deriving DecidableEq

namespace Nonterminal

/-- The next tighter level, of which a level is made. -/
def next : Nonterminal → Nonterminal
  | expression => equality
  | equality => comparison
  | comparison => term
  | term => factor
  | factor => unary
  | unary => primary
  | primary => primary

/-- The binary operators of a level. -/
def operators : Nonterminal → List TokenKind
  | equality => [.equal, .notEqual]
  | comparison => [.less, .lessEqual, .greater, .greaterEqual]
  | term => [.minus, .plus]
  | factor => [.times, .divide]
  | _ => []

/-- How tight a level is. -/
def rank : Nonterminal → Nat
  | expression => 0
  | equality => 1
  | comparison => 2
  | term => 3
  | factor => 4
  | unary => 5
  | primary => 6

theorem rank_next {n : Nonterminal} (hn : n ≠ primary) : n.next.rank = n.rank + 1 := by
  cases n <;> simp_all [next, rank]

theorem rank_injective {m n : Nonterminal} (h : m.rank = n.rank) : m = n := by
  cases m <;> cases n <;> simp_all [rank]

theorem rank_le (n : Nonterminal) : n.rank ≤ 6 := by
  cases n <;> decide

/-- The operators of a level are those that bind as tightly as the level is. -/
theorem mem_operators_iff {n : Nonterminal} {k : TokenKind} :
    k ∈ n.operators ↔ 0 < k.precedence ∧ k.precedence = n.rank := by
  cases n <;> cases k <;> simp [operators, rank, TokenKind.precedence]

theorem exists_mem_operators {k : TokenKind} (h : 0 < k.precedence) :
    ∃ n : Nonterminal, k ∈ n.operators := by
  have hle : k.precedence = 1 ∨ k.precedence = 2 ∨ k.precedence = 3 ∨ k.precedence = 4 := by
    cases k <;> simp_all [TokenKind.precedence]
  obtain hk | hk | hk | hk := hle
  · exact ⟨equality, mem_operators_iff.mpr ⟨h, hk⟩⟩
  · exact ⟨comparison, mem_operators_iff.mpr ⟨h, hk⟩⟩
  · exact ⟨term, mem_operators_iff.mpr ⟨h, hk⟩⟩
  · exact ⟨factor, mem_operators_iff.mpr ⟨h, hk⟩⟩

theorem rank_lt_of_mem_operators {n : Nonterminal} {k : TokenKind} (h : k ∈ n.operators) :
    n.rank < unary.rank := by
  cases n <;> simp_all [operators, rank]

theorem ne_primary_of_mem_operators {n : Nonterminal} {k : TokenKind} (h : k ∈ n.operators) :
    n ≠ primary := by
  rintro rfl
  simp [operators] at h

end Nonterminal

/-- The prefix operators. -/
def prefixOperators : List TokenKind := [.notOp, .andOp, .minus]

/-- The tokens `u` are a phrase of a level, and `x` is its tree. -/
inductive Derives : Nonterminal → List Token → Expr → Prop where
  /-- A phrase of the next tighter level. -/
  | tighter {n : Nonterminal} {u : List Token} {x : Expr} (hn : n ≠ .primary) :
      Derives n.next u x → Derives n u x
  /-- A phrase of the level, one of its operators, and an operand. -/
  | operation {n : Nonterminal} {u v : List Token} {x y : Expr} {t : Token} :
      Derives n u x → t.kind ∈ n.operators → Derives n.next v y →
        Derives n (u ++ t :: v) (.binary t.pos t.kind x y)
  /-- A prefix operator before a phrase of the level that has them. -/
  | prefixed {u : List Token} {x : Expr} {t : Token} :
      t.kind ∈ prefixOperators → Derives .unary u x → Derives .unary (t :: u) (.unary t.pos t.kind x)
  | literal {t : Token} : t.kind = .literal → Derives .primary [t] (.lit t.pos t.value)
  | parens {l r : Token} {u : List Token} {x : Expr} :
      l.kind = .leftParen → Derives .expression u x → r.kind = .rightParen →
        Derives .primary (l :: u ++ [r]) x

namespace Derives

/-- A phrase of a tight level is one of every looser level. -/
theorem loosen {u : List Token} {x : Expr} {m n : Nonterminal} (h : m.rank ≤ n.rank)
    (d : Derives n u x) : Derives m u x := by
  by_cases hmn : m = n
  · exact hmn ▸ d
  · have hlt : m.rank < n.rank := lt_of_le_of_ne h fun he => hmn (Nonterminal.rank_injective he)
    have hm : m ≠ .primary := by
      rintro rfl
      exact absurd hlt (not_lt.mpr n.rank_le)
    have hnext := Nonterminal.rank_next hm
    exact .tighter hm (loosen (by omega) d)
termination_by 6 - m.rank
decreasing_by
  have := n.rank_le
  omega

/-- A phrase holds no newline and no end token. -/
theorem kind_ne {n : Nonterminal} {u : List Token} {x : Expr} (d : Derives n u x) :
    ∀ t ∈ u, t.kind ≠ .newline ∧ t.kind ≠ .eof := by
  induction d with
  | tighter _ _ ih => exact ih
  | @operation n u v x y t _ ht _ ihx ihy =>
    have hk := (Nonterminal.mem_operators_iff.mp ht).1
    simp only [List.mem_append, List.mem_cons]
    rintro s (hs | rfl | hs)
    · exact ihx s hs
    · constructor <;> intro h <;> simp [h, TokenKind.precedence] at hk
    · exact ihy s hs
  | @prefixed u x t ht _ ih =>
    simp only [List.mem_cons]
    rintro s (rfl | hs)
    · constructor <;> intro h <;> simp [h, prefixOperators] at ht
    · exact ih s hs
  | literal ht => simp [ht]
  | @parens l r u x hl _ hr ih =>
    simp only [List.cons_append, List.mem_cons, List.mem_append, List.not_mem_nil, or_false]
    rintro s (rfl | hs | rfl)
    · simp [hl]
    · exact ih s hs
    · simp [hr]

theorem ne_nil {n : Nonterminal} {u : List Token} {x : Expr} (d : Derives n u x) : u ≠ [] := by
  induction d with
  | tighter _ _ ih => exact ih
  | operation => simp
  | prefixed => simp
  | literal => simp
  | parens => simp

end Derives

/-! ### What the grammar derives, the parser reads -/

/-- How tightly the binary operator on top of the frames binds, zero if there is
none. -/
def topPrecedence : List Frame → Nat
  | .binary _ op _ :: _ => op.precedence
  | _ => 0

/-- How tightly the binary operator in front of the tokens binds, zero if there is
none. -/
def nextPrecedence (ts : List Token) : Nat := (ts.head?.map (·.kind.precedence)).getD 0

theorem closeTighter_of_topPrecedence_lt {level : Nat} {frames : List Frame}
    (h : topPrecedence frames < level) (x : Expr) : closeTighter level frames x = (frames, x) := by
  rcases frames with _ | ⟨⟨p, op, y⟩ | ops, frames⟩
  · rfl
  · exact if_neg (not_le.mpr h)
  · rfl

/-- A binary operator that binds at least as tightly as the next one can be closed
at once. -/
theorem run_binary_frame (stop : Token) {p : Pos} {op : TokenKind} {frames : List Frame} {x y : Expr}
    {ts : List Token} (h : nextPrecedence ts ≤ op.precedence) :
    (operator (.binary p op x :: frames) y).run stop ts =
      (operator frames (.binary p op x y)).run stop ts := by
  cases ts with
  | nil => simp only [run_nil, halt, closeAll]
  | cons t ts =>
    have hclose : closeTighter t.kind.precedence (.binary p op x :: frames) y =
        closeTighter t.kind.precedence frames (.binary p op x y) := by
      rw [closeTighter, if_pos (by simpa [nextPrecedence] using h)]
    simp only [run_cons, step, halt, closeAll, hclose]

/-- Reading a phrase leaves its tree as the operand. At a level of binary operators
what is open binds more loosely than the level and what follows does not bind more
tightly; at the tightest levels the prefix operators in front of the phrase are
applied to it. -/
def RunsTo (n : Nonterminal) (u : List Token) (x : Expr) : Prop :=
  ∀ (stop : Token) (frames : List Frame) (ops : List PrefixOp) (rest : List Token),
    (n.rank < Nonterminal.unary.rank → ops = [] ∧ (topPrecedence frames = 0 ∨ topPrecedence frames < n.rank) ∧
        nextPrecedence rest ≤ n.rank) →
      (operand frames ops).run stop (u ++ rest) = (operator frames (applyPrefix ops x)).run stop rest

theorem run_literal (stop : Token) {t : Token} (ht : t.kind = .literal) (frames : List Frame)
    (ops : List PrefixOp) (rest : List Token) :
    (operand frames ops).run stop (t :: rest) =
      (operator frames (applyPrefix ops (.lit t.pos t.value))).run stop rest := by
  simp [run_cons, step, ht]

theorem run_leftParen (stop : Token) {t : Token} (ht : t.kind = .leftParen) (frames : List Frame)
    (ops : List PrefixOp) (rest : List Token) :
    (operand frames ops).run stop (t :: rest) = (operand (.paren ops :: frames) []).run stop rest := by
  simp [run_cons, step, ht]

theorem run_rightParen (stop : Token) {t : Token} (ht : t.kind = .rightParen) (frames : List Frame)
    (ops : List PrefixOp) (x : Expr) (rest : List Token) :
    (operator (.paren ops :: frames) x).run stop (t :: rest) =
      (operator frames (applyPrefix ops x)).run stop rest := by
  simp [run_cons, step, ht, TokenKind.precedence, closeAll]

theorem run_prefixOperator (stop : Token) {t : Token} (ht : t.kind ∈ prefixOperators)
    (frames : List Frame) (ops : List PrefixOp) (rest : List Token) :
    (operand frames ops).run stop (t :: rest) =
      (operand frames (⟨t.pos, t.kind⟩ :: ops)).run stop rest := by
  simp only [prefixOperators, List.mem_cons, List.not_mem_nil, or_false] at ht
  rcases ht with ht | ht | ht <;> simp [run_cons, step, ht]

theorem run_binaryOperator (stop : Token) {t : Token} (ht : 0 < t.kind.precedence) {frames : List Frame}
    (hf : topPrecedence frames < t.kind.precedence) (x : Expr) (rest : List Token) :
    (operator frames x).run stop (t :: rest) =
      (operand (.binary t.pos t.kind x :: frames) []).run stop rest := by
  simp [run_cons, step, ht, closeTighter_of_topPrecedence_lt hf]

/-- **What the grammar derives, the parser reads to its end.** -/
theorem Derives.run_eq {n : Nonterminal} {u : List Token} {x : Expr} (d : Derives n u x) :
    RunsTo n u x := by
  induction d with
  | @tighter n u x hn _ ih =>
    intro stop frames ops rest h
    have hr := Nonterminal.rank_next hn
    refine ih stop frames ops rest fun hlt => ?_
    obtain ⟨rfl, h₁, h₂⟩ := h (by omega)
    exact ⟨rfl, by omega, by omega⟩
  | @operation n u v x y t _ ht _ ihx ihy =>
    intro stop frames ops rest h
    obtain ⟨hpos, hp⟩ := Nonterminal.mem_operators_iff.mp ht
    have hr := Nonterminal.rank_next (Nonterminal.ne_primary_of_mem_operators ht)
    obtain ⟨rfl, h₁, h₂⟩ := h (Nonterminal.rank_lt_of_mem_operators ht)
    -- the left operand, the operator, the right operand, and then the operator is closed
    calc (operand frames []).run stop (u ++ t :: v ++ rest)
      _ = (operand frames []).run stop (u ++ t :: (v ++ rest)) := by simp
      _ = (operator frames x).run stop (t :: (v ++ rest)) :=
          ihx stop frames [] _ fun _ => ⟨rfl, h₁, by simp [nextPrecedence, hp]⟩
      _ = (operand (.binary t.pos t.kind x :: frames) []).run stop (v ++ rest) :=
          run_binaryOperator stop hpos (by omega) x _
      _ = (operator (.binary t.pos t.kind x :: frames) y).run stop rest :=
          ihy stop _ [] rest fun _ => ⟨rfl, by simp only [topPrecedence]; omega, by omega⟩
      _ = (operator frames (.binary t.pos t.kind x y)).run stop rest :=
          run_binary_frame stop (by omega)
  | @prefixed u x t ht _ ih =>
    intro stop frames ops rest _
    rw [List.cons_append, run_prefixOperator stop ht,
      ih stop frames _ rest fun hlt => absurd hlt (by decide)]
    rfl
  | @literal t ht =>
    intro stop frames ops rest _
    exact run_literal stop ht frames ops rest
  | @parens l r u x hl _ hr ih =>
    intro stop frames ops rest _
    calc (operand frames ops).run stop (l :: u ++ [r] ++ rest)
      _ = (operand (.paren ops :: frames) []).run stop (u ++ r :: rest) := by
          rw [← run_leftParen stop hl]; simp
      _ = (operator (.paren ops :: frames) x).run stop (r :: rest) :=
          ih stop _ [] _ fun _ => ⟨rfl, .inl rfl, by simp [nextPrecedence, hr, TokenKind.precedence]⟩
      _ = (operator frames (applyPrefix ops x)).run stop rest := run_rightParen stop hr frames ops x rest

/-! ### What the parser reads, the grammar derives -/

/-- The prefix operators `ops`, innermost first, are those of the tokens `w`. -/
def Prefixes (ops : List PrefixOp) (w : List Token) : Prop :=
  ops = (w.map fun t => ⟨t.pos, t.kind⟩).reverse ∧ ∀ t ∈ w, t.kind ∈ prefixOperators

theorem Prefixes.snoc {ops : List PrefixOp} {w : List Token} {t : Token} (h : Prefixes ops w)
    (ht : t.kind ∈ prefixOperators) : Prefixes (⟨t.pos, t.kind⟩ :: ops) (w ++ [t]) := by
  obtain ⟨rfl, hw⟩ := h
  refine ⟨by simp, ?_⟩
  simp only [List.mem_append, List.mem_singleton]
  rintro s (hs | rfl)
  · exact hw s hs
  · exact ht

theorem Prefixes.derives : ∀ {ops : List PrefixOp} {w u : List Token} {x : Expr}, Prefixes ops w →
    Derives .unary u x → Derives .unary (w ++ u) (applyPrefix ops x)
  | _, [], u, x, ⟨rfl, _⟩, d => d
  | _, t :: w, u, x, ⟨rfl, hw⟩, d => by
    have ih := Prefixes.derives ⟨rfl, fun s hs => hw s (List.mem_cons_of_mem t hs)⟩ d
    simpa [applyPrefix] using Derives.prefixed (hw t List.mem_cons_self) ih

/-- The tokens `v` leave the frames open: each frame is a binary operator after a
phrase of its level, which what is below it leaves open, or a parenthesis after
prefix operators. -/
inductive Pending : List Frame → List Token → Prop where
  | nil : Pending [] []
  | binary {frames : List Frame} {v u : List Token} {n : Nonterminal} {x : Expr} {t : Token} :
      Pending frames v → topPrecedence frames < n.rank → Derives n u x → t.kind ∈ n.operators →
        Pending (.binary t.pos t.kind x :: frames) (v ++ u ++ [t])
  | paren {frames : List Frame} {v w : List Token} {ops : List PrefixOp} {t : Token} :
      Pending frames v → Prefixes ops w → t.kind = .leftParen →
        Pending (.paren ops :: frames) (v ++ w ++ [t])

/-- What is read last can be put under the operator on top. -/
theorem derives_binary {n m : Nonterminal} {u₁ u₂ : List Token} {x y : Expr} {t : Token}
    (d₁ : Derives n u₁ x) (ht : t.kind ∈ n.operators) (d₂ : Derives m u₂ y) (h : n.rank < m.rank) :
    Derives n (u₁ ++ t :: u₂) (.binary t.pos t.kind x y) := by
  have hr := Nonterminal.rank_next (Nonterminal.ne_primary_of_mem_operators ht)
  exact .operation d₁ ht (d₂.loosen (by omega))

/-- Closing the operators that bind at least as tightly as `level` makes a phrase of
that level, under operators that bind more loosely. -/
theorem Pending.of_closeTighter {level : Nat} (hlevel : 0 < level) {frames : List Frame} {v : List Token}
    (h : Pending frames v) : ∀ {m : Nonterminal} {u : List Token} {x : Expr}, Derives m u x →
      topPrecedence frames < m.rank → level ≤ m.rank →
        ∃ v' u' m', v ++ u = v' ++ u' ∧ Pending (closeTighter level frames x).1 v' ∧
          topPrecedence (closeTighter level frames x).1 < level ∧ level ≤ m'.rank ∧
            Derives m' u' (closeTighter level frames x).2 := by
  induction h with
  | nil =>
    intro m u x d _ hm
    exact ⟨[], u, m, rfl, .nil, hlevel, hm, d⟩
  | @binary frames v u₀ n y t hp hn d₀ ht ih =>
    intro m u x d htop hm
    have hprec := (Nonterminal.mem_operators_iff.mp ht).2
    rw [closeTighter]
    split
    · next hle =>
      have hlt : n.rank < m.rank := by simpa [topPrecedence, hprec] using htop
      obtain ⟨v', u', m', heq, hrest⟩ := ih (derives_binary d₀ ht d hlt) hn (by omega)
      exact ⟨v', u', m', by simpa using heq, hrest⟩
    · next hlt => exact ⟨v ++ u₀ ++ [t], u, m, rfl, .binary hp hn d₀ ht, not_le.mp hlt, hm, d⟩
  | @paren frames v w ops t hp hw ht _ =>
    intro m u x d _ hm
    exact ⟨v ++ w ++ [t], u, m, rfl, .paren hp hw ht, hlevel, hm, d⟩

/-- Closing all operators makes an expression, which is all that has been read, or
stands after the innermost parenthesis. -/
theorem Pending.of_closeAll {frames : List Frame} {v : List Token} (h : Pending frames v) :
    ∀ {m : Nonterminal} {u : List Token} {x : Expr}, Derives m u x → topPrecedence frames < m.rank →
      match closeAll frames x with
      | (y, none) => Derives .expression (v ++ u) y
      | (y, some (ops, below)) => ∃ v' w t u', v ++ u = v' ++ (w ++ t :: u') ∧ Pending below v' ∧
          Prefixes ops w ∧ t.kind = .leftParen ∧ Derives .expression u' y := by
  induction h with
  | nil =>
    intro m u x d _
    exact d.loosen (Nat.zero_le _)
  | @binary frames v u₀ n y t hp hn d₀ ht ih =>
    intro m u x d htop
    have hprec := (Nonterminal.mem_operators_iff.mp ht).2
    have hlt : n.rank < m.rank := by simpa [topPrecedence, hprec] using htop
    rw [closeAll]
    simpa using ih (derives_binary d₀ ht d hlt) hn
  | @paren frames v w ops t hp hw ht _ =>
    intro m u x d _
    exact ⟨v, w, t, u, by simp, hp, hw, ht, d.loosen (Nat.zero_le _)⟩

/-- What a state has made of the tokens `v`. -/
def Reads (v : List Token) : ParserState → Prop
  | operand frames ops => ∃ v' w, v = v' ++ w ∧ Pending frames v' ∧ Prefixes ops w
  | operator frames x => ∃ v' u, v = v' ++ u ∧ Pending frames v' ∧ Derives .unary u x

theorem topPrecedence_lt_unary {frames : List Frame} {v : List Token} (h : Pending frames v) :
    topPrecedence frames < Nonterminal.unary.rank := by
  cases h with
  | nil => decide
  | @binary frames v u n x t _ _ _ ht =>
    have hprec := (Nonterminal.mem_operators_iff.mp ht).2
    rw [topPrecedence, hprec]
    exact Nonterminal.rank_lt_of_mem_operators ht
  | paren => exact Nat.zero_lt_succ _

/-- **Every step keeps what has been read derivable.** -/
theorem step_reads (v : List Token) (s : ParserState) (t : Token) (s' : ParserState) (h : Reads v s)
    (hs : s.step t = some s') : Reads (v ++ [t]) s' := by
  obtain ⟨frames, ops, rfl, ⟨ht, rfl⟩ | ⟨ht, rfl⟩ | ⟨ht, rfl⟩⟩ |
    ⟨frames, x, rfl, ⟨ht, rfl⟩ | ⟨ht, y, ops, below, hc, rfl⟩⟩ := step_cases hs
  · obtain ⟨v', w, rfl, hp, hw⟩ := h
    have d : Derives .unary [t] (.lit t.pos t.value) := .tighter (by decide) (.literal ht)
    exact ⟨v', w ++ [t], by simp, hp, hw.derives d⟩
  · obtain ⟨v', w, rfl, hp, hw⟩ := h
    exact ⟨v', w ++ [t], by simp, hp, hw.snoc ht⟩
  · obtain ⟨v', w, rfl, hp, hw⟩ := h
    exact ⟨v' ++ w ++ [t], [], by simp, .paren hp hw ht, rfl, by simp⟩
  · obtain ⟨v', u, rfl, hp, d⟩ := h
    obtain ⟨n, hn⟩ := Nonterminal.exists_mem_operators ht
    have hprec := (Nonterminal.mem_operators_iff.mp hn).2
    have hle : t.kind.precedence ≤ Nonterminal.unary.rank :=
      hprec ▸ (Nonterminal.rank_lt_of_mem_operators hn).le
    obtain ⟨v₁, u₁, m, heq, hp₁, htop, hm, d₁⟩ := hp.of_closeTighter ht d (topPrecedence_lt_unary hp) hle
    exact ⟨v₁ ++ u₁ ++ [t], [], by simp [heq], .binary hp₁ (by omega) (d₁.loosen (by omega)) hn, rfl, by simp⟩
  · obtain ⟨v', u, rfl, hp, d⟩ := h
    have hclose := hp.of_closeAll d (topPrecedence_lt_unary hp)
    rw [hc] at hclose
    obtain ⟨v₁, w, l, u₁, heq, hp₁, hw, hl, d₁⟩ := hclose
    have hparens : Derives .unary (l :: u₁ ++ [t]) y := .tighter (by decide) (.parens hl d₁ ht)
    exact ⟨v₁, w ++ (l :: u₁ ++ [t]), by simp [heq], hp₁, hw.derives hparens⟩

/-- A run that halts with an expression has read a phrase for it. -/
theorem derives_of_halt {read : List Token} {s : ParserState} {t : Token} {x : Expr}
    (h : start.after read = some s) (hx : s.halt t = .ok x) : Derives .expression read x := by
  have hstart : Reads [] start := ⟨[], [], rfl, .nil, rfl, by simp⟩
  have hreads : Reads ([] ++ read) s := after_invariant step_reads read [] hstart h
  cases s with
  | operand frames ops => simp [halt] at hx
  | operator frames y =>
    obtain ⟨v', u, rfl, hp, d⟩ := hreads
    have hclose := hp.of_closeAll d (topPrecedence_lt_unary hp)
    rcases hc : closeAll frames y with ⟨z, _ | ⟨ops, below⟩⟩
    · obtain rfl : z = x := by simpa [halt, hc] using hx
      simpa [hc] using hclose
    · simp [halt, hc] at hx

/-! ### The parser and the grammar -/

/-- A run gives an expression exactly where the grammar derives it from the tokens
read, and no binary operator follows. -/
theorem run_start_eq_ok_iff {stop : Token} {ts rest : List Token} {x : Expr} :
    start.run stop ts = (.ok x, rest) ↔
      ∃ u, ts = u ++ rest ∧ Derives .expression u x ∧ nextPrecedence rest = 0 := by
  constructor
  · intro h
    obtain ⟨read, rest', s, rfl, hs, hrest⟩ := exists_halt start ts
    rw [run_eq_halt stop read rest' hs hrest, Prod.mk.injEq] at h
    obtain ⟨hx, rfl⟩ := h
    refine ⟨read, rfl, derives_of_halt hs hx, ?_⟩
    cases rest' with
    | nil => rfl
    | cons t ts =>
      -- after an expression every binary operator is read
      by_contra hp
      have hpos : 0 < t.kind.precedence := Nat.pos_of_ne_zero hp
      cases s with
      | operand frames ops => simp [halt] at hx
      | operator frames y =>
        have := hrest t rfl
        simp [step, hpos] at this
  · rintro ⟨u, rfl, d, hrest⟩
    rw [start, d.run_eq stop [] [] rest fun _ => ⟨rfl, .inl rfl, hrest.le⟩]
    cases rest with
    | nil => simp [run_nil, halt, closeAll, applyPrefix]
    | cons t ts =>
      have hp : t.kind.precedence = 0 := hrest
      simp [run_cons, step, halt, closeAll, applyPrefix, hp]

/-- **No tokens have two trees.** -/
theorem Derives.unique {m n : Nonterminal} {u : List Token} {x y : Expr} (dx : Derives m u x)
    (dy : Derives n u y) : x = y := by
  have hrun : ∀ {n : Nonterminal} {z : Expr}, Derives n u z → start.run { kind := .eof } u = (.ok z, []) :=
    fun d => run_start_eq_ok_iff.mpr ⟨u, by simp, d.loosen (Nat.zero_le _), rfl⟩
  have h := (hrun dx).symm.trans (hrun dy)
  simpa using h

theorem nextPrecedence_eq_zero_iff {s : TokenStream} (hs : s.stop.kind = .eof) :
    nextPrecedence s.ahead = 0 ↔ ∀ n : Nonterminal, s.current.kind ∉ n.operators := by
  have hcur : nextPrecedence s.ahead = s.current.kind.precedence := by
    unfold nextPrecedence current
    cases s.ahead with
    | nil => simp [hs, TokenKind.precedence]
    | cons t ts => rfl
  rw [hcur]
  constructor
  · intro h n hn
    have := (Nonterminal.mem_operators_iff.mp hn).1
    omega
  · intro h
    by_contra hp
    obtain ⟨n, hn⟩ := Nonterminal.exists_mem_operators (Nat.pos_of_ne_zero hp)
    exact h n hn

/-- A stream that stands in a list with one end token ends with it. -/
theorem stop_kind_of_isSuffix {ts : List Token} (hts : Terminated ts) {s : TokenStream}
    (hs : s.remaining <:+ ts) : s.stop.kind = .eof := by
  obtain ⟨body, stop, rfl, -, hstop⟩ := hts
  obtain ⟨v, hv⟩ := hs
  rw [remaining, ← List.append_assoc] at hv
  rw [(List.append_inj' hv rfl).2 |> List.singleton_inj.mp]
  exact hstop

/-- Parsing one expression from a stream follows the grammar. -/
theorem parseExpr_eq_ok_iff {s s' : TokenStream} (hstop : s.stop.kind = .eof) {x : Expr} :
    s.parseExpr = (.ok x, s') ↔ ∃ u, s.remaining = u ++ s'.remaining ∧ Derives .expression u x ∧
      ∀ n : Nonterminal, s'.current.kind ∉ n.operators := by
  have hparse : s.parseExpr = (.ok x, s') ↔
      start.run s.stop s.ahead = (.ok x, s'.ahead) ∧ s'.stop = s.stop := by
    obtain ⟨ahead', stop'⟩ := s'
    unfold parseExpr start run
    constructor
    · intro h
      simp only [Prod.mk.injEq, TokenStream.mk.injEq] at h
      exact ⟨Prod.ext h.1 h.2.1, h.2.2.symm⟩
    · rintro ⟨h, rfl⟩
      simp only [h]
  rw [hparse, run_start_eq_ok_iff]
  constructor
  · rintro ⟨⟨u, hu, d, hp⟩, hs⟩
    refine ⟨u, by simp [remaining, hu, hs], d, ?_⟩
    exact (nextPrecedence_eq_zero_iff (by rw [hs, hstop])).mp hp
  · rintro ⟨u, hu, d, hp⟩
    rw [remaining, remaining, ← List.append_assoc] at hu
    obtain ⟨hahead, hs⟩ := List.append_inj' hu rfl
    have hs' : s'.stop = s.stop := (List.singleton_inj.mp hs).symm
    exact ⟨⟨u, hahead, d, (nextPrecedence_eq_zero_iff (by rw [hs', hstop])).mpr hp⟩, hs'⟩

/-- Parsing a whole list follows the grammar, with newlines on either side. -/
theorem parseTokens_eq_ok_iff {ts : List Token} (hts : Terminated ts) {x : Expr} :
    parseTokens ts = .ok x ↔ ∃ m u n stop, ts = m ++ u ++ n ++ [stop] ∧
      (∀ t ∈ m, t.kind = .newline) ∧ Derives .expression u x ∧ (∀ t ∈ n, t.kind = .newline) ∧
        stop.kind = .eof := by
  constructor
  · obtain ⟨body, stop, rfl, hbody, hstop⟩ := hts
    obtain ⟨m, rest, rfl, hm, hrest⟩ := exists_newlines body
    rw [parseTokens, ofTokens_eof hbody hstop, parse_eq_run hm hrest]
    rcases hrun : start.run stop rest with ⟨e | y, left⟩
    · simp
    · obtain ⟨u, rfl, d, -⟩ := run_start_eq_ok_iff.mp hrun
      obtain ⟨n, after, rfl, hn, hafter⟩ := exists_newlines left
      simp only [dropWhile_newline_append hn hafter]
      cases after with
      | nil =>
        rintro ⟨⟩
        exact ⟨m, u, n, stop, by simp, hm, d, hn, hstop⟩
      | cons t after => simp
  · rintro ⟨m, u, n, stop, rfl, hm, d, hn, hstop⟩
    have hfront : ∀ t ∈ (u ++ n).head?, t.kind ≠ .newline := by
      obtain ⟨t, u, rfl⟩ := List.exists_cons_of_ne_nil d.ne_nil
      rintro _ ⟨⟩
      exact (d.kind_ne t List.mem_cons_self).1
    have hnext : nextPrecedence n = 0 := by
      cases n with
      | nil => rfl
      | cons t n => simp [nextPrecedence, hn t List.mem_cons_self, TokenKind.precedence]
    have hrun : start.run stop (u ++ n) = (.ok x, n) := run_start_eq_ok_iff.mpr ⟨u, rfl, d, hnext⟩
    rw [List.append_assoc m u n]
    exact (parseTokens_eq_ok hm hfront hn (fun t ht => (d.kind_ne t ht).2) hstop hrun).2

/-- **The parser accepts exactly the grammar.** In a token list whose only end token
is its last, one expression is parsed from any place exactly if the grammar derives it
from the tokens up to where the stream is left, and no binary operator follows; the
whole list is accepted exactly if it is an expression with newlines on either side; and
no tokens have two trees. -/
theorem parser_accepts_grammar {ts : List Token} (hts : Terminated ts) :
    (∀ (s s' : TokenStream) (x : Expr), s.remaining <:+ ts →
      (s.parseExpr = (.ok x, s') ↔ ∃ u, s.remaining = u ++ s'.remaining ∧ Derives .expression u x ∧
        ∀ n : Nonterminal, s'.current.kind ∉ n.operators)) ∧
    (∀ x, parseTokens ts = .ok x ↔ ∃ m u n stop, ts = m ++ u ++ n ++ [stop] ∧
      (∀ t ∈ m, t.kind = .newline) ∧ Derives .expression u x ∧ (∀ t ∈ n, t.kind = .newline) ∧
        stop.kind = .eof) ∧
    (∀ u x y, Derives .expression u x → Derives .expression u y → x = y) :=
  ⟨fun _ _ _ hs => parseExpr_eq_ok_iff (stop_kind_of_isSuffix hts hs),
    fun _ => parseTokens_eq_ok_iff hts, fun _ _ _ => Derives.unique⟩

/-- The tokens of `8 - 4 - 2` between two newlines. -/
def differenceTokens : List Token :=
  [{ kind := .newline, pos := ⟨"", 1, 1⟩ }, { kind := .literal, pos := ⟨"", 2, 1⟩, value := .int 8 },
    { kind := .minus, pos := ⟨"", 2, 3⟩ }, { kind := .literal, pos := ⟨"", 2, 5⟩, value := .int 4 },
    { kind := .minus, pos := ⟨"", 2, 7⟩ }, { kind := .literal, pos := ⟨"", 2, 9⟩, value := .int 2 },
    { kind := .newline, pos := ⟨"", 2, 10⟩ }, { kind := .eof, pos := ⟨"", 3, 1⟩ }]

/-- Differences fold to the left, from the start of the list and from within it. -/
theorem grammar_of_differenceTokens : Terminated differenceTokens ∧
    (∃ m u n stop, differenceTokens = m ++ u ++ n ++ [stop] ∧ (∀ t ∈ m, t.kind = .newline) ∧
      Derives .expression u (.binary ⟨"", 2, 7⟩ .minus (.binary ⟨"", 2, 3⟩ .minus
        (.lit ⟨"", 2, 1⟩ (.int 8)) (.lit ⟨"", 2, 5⟩ (.int 4))) (.lit ⟨"", 2, 9⟩ (.int 2))) ∧
      (∀ t ∈ n, t.kind = .newline) ∧ stop.kind = .eof) ∧
    (∃ u s', differenceTokens.drop 3 = u ++ TokenStream.remaining s' ∧
      Derives .expression u (.binary ⟨"", 2, 7⟩ .minus (.lit ⟨"", 2, 5⟩ (.int 4))
        (.lit ⟨"", 2, 9⟩ (.int 2)))) := by
  have hts : Terminated differenceTokens := ⟨differenceTokens.dropLast, _, rfl, by decide, rfl⟩
  obtain ⟨hexpr, hwhole, -⟩ := parser_accepts_grammar hts
  obtain ⟨u, hu, d, -⟩ := (hexpr (ofTokens (differenceTokens.drop 3)) _ _
    (List.drop_suffix 3 differenceTokens)).mp rfl
  exact ⟨hts, (hwhole _).mp rfl, u, _, hu, d⟩

end Pseudocode
