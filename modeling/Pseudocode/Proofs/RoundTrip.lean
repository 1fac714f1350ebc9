/-
# Printing and parsing

A tree that is printed and parsed again is the same tree, its places apart. Which trees
these are is a property of the tree alone, `Expr.Printable`, and every tree that was
parsed has it.

The text of a tree splits into its lexemes (`split_pieces`), as each of them is followed
by a blank or a parenthesis or is one that nothing can extend. The lexemes are those of a
phrase that derives the tree (`derives_pieces`), and what a phrase derives does not depend
on where its tokens stand (`Derives.of_unplaced`). The rest is that the parser accepts
what the grammar derives.

Key definitions: `Value.Printable`, `Expr.Printable`, `Expr.unplaced`, `Expr.pieces`.
Key theorems: `Value.spells_source`, `split_pieces`, `derives_pieces`, `Derives.printable`,
`source_parses_back`.
-/
import Pseudocode.Expr.Eval
import Pseudocode.Expr.Printer
import Pseudocode.Pipeline
import Pseudocode.Proofs.Grammar
import Pseudocode.Proofs.ReadBack
import Pseudocode.Proofs.Tokenization

namespace Pseudocode

/-! ### Trees without places -/

/-- The tree with all its places forgotten. -/
def Expr.unplaced : Expr → Expr
  | .lit _ v => .lit {} v
  | .unary _ op x => .unary {} op x.unplaced
  | .binary _ op x y => .binary {} op x.unplaced y.unplaced
  | .hole => .hole
  | .foreign name => .foreign name

/-- The token with its place forgotten. -/
def Token.unplaced (t : Token) : Token := { t with pos := {} }

/-- The error with its place forgotten. -/
def EvalError.unplaced : EvalError → EvalError
  | .runtime e => .runtime { e with pos := {} }
  | .unsupported name => .unsupported name

theorem unaryAt_unplaced (p : Pos) (op : TokenKind) (v : Value) :
    unaryAt {} op v = (unaryAt p op v).mapError EvalError.unplaced := by
  unfold unaryAt
  cases applyUnary op v <;> rfl

theorem binaryAt_unplaced (p : Pos) (op : TokenKind) (v w : Value) :
    binaryAt {} op v w = (binaryAt p op v w).mapError EvalError.unplaced := by
  unfold binaryAt
  cases applyBinary op v w <;> rfl

/-- Places matter to an evaluation only in the error it ends with. -/
theorem Expr.eval_unplaced (x : Expr) : x.unplaced.eval = x.eval.mapError EvalError.unplaced := by
  induction x with
  | lit | hole | foreign => rfl
  | unary p op x ih =>
    rw [unplaced, eval, eval, ih]
    cases x.eval with
    | error => rfl
    | ok v => exact unaryAt_unplaced p op v
  | binary p op x y ihx ihy =>
    rw [unplaced, eval, eval, ihx, ihy]
    cases x.eval with
    | error => rfl
    | ok v =>
      cases y.eval with
      | error => rfl
      | ok w => exact binaryAt_unplaced p op v w

theorem kind_eq_of_unplaced {s t : Token} (h : s.unplaced = t.unplaced) : s.kind = t.kind :=
  (congrArg Token.kind h : s.unplaced.kind = t.unplaced.kind)

theorem value_eq_of_unplaced {s t : Token} (h : s.unplaced = t.unplaced) : s.value = t.value :=
  (congrArg Token.value h : s.unplaced.value = t.unplaced.value)

/-- The same tokens in other places derive the same tree with other places. -/
theorem Derives.of_unplaced {n : Nonterminal} {u : List Token} {x : Expr} (d : Derives n u x) :
    ∀ {u' : List Token}, u'.map Token.unplaced = u.map Token.unplaced →
      ∃ x', Derives n u' x' ∧ x'.unplaced = x.unplaced := by
  induction d with
  | tighter hn _ ih =>
    intro u' h
    obtain ⟨x', d', hx'⟩ := ih h
    exact ⟨x', .tighter hn d', hx'⟩
  | @operation n u v x y t _ ht _ ihx ihy =>
    intro u' h
    rw [List.map_append, List.map_cons, List.map_eq_append_iff] at h
    obtain ⟨u₁, w, rfl, hu, hw⟩ := h
    obtain ⟨t', v₁, rfl, ht', hv⟩ := List.map_eq_cons_iff.mp hw
    obtain ⟨x', dx, hx⟩ := ihx hu
    obtain ⟨y', dy, hy⟩ := ihy hv
    have hk := kind_eq_of_unplaced ht'
    exact ⟨_, .operation dx (hk ▸ ht) dy, by simp [Expr.unplaced, hx, hy, hk]⟩
  | @prefixed u x t ht _ ih =>
    intro u' h
    obtain ⟨t', v, rfl, ht', hv⟩ := List.map_eq_cons_iff.mp h
    obtain ⟨x', dx, hx⟩ := ih hv
    have hk := kind_eq_of_unplaced ht'
    exact ⟨_, .prefixed (hk ▸ ht) dx, by simp [Expr.unplaced, hx, hk]⟩
  | @literal t ht =>
    intro u' h
    obtain ⟨t', v, rfl, ht', hv⟩ := List.map_eq_cons_iff.mp h
    obtain rfl := List.map_eq_nil_iff.mp hv
    exact ⟨_, .literal (kind_eq_of_unplaced ht' ▸ ht), by simp [Expr.unplaced, value_eq_of_unplaced ht']⟩
  | @parens l r u x hl _ hr ih =>
    intro u' h
    rw [List.cons_append, List.map_cons, List.map_append] at h
    obtain ⟨l', w, rfl, hl', hw⟩ := List.map_eq_cons_iff.mp h
    obtain ⟨v, w, rfl, hv, hw⟩ := List.map_eq_append_iff.mp hw
    obtain ⟨r', w, rfl, hr', hw⟩ := List.map_eq_cons_iff.mp hw
    obtain rfl := List.map_eq_nil_iff.mp hw
    obtain ⟨x', dx, hx⟩ := ih hv
    exact ⟨x', .parens (kind_eq_of_unplaced hl' ▸ hl) dx (kind_eq_of_unplaced hr' ▸ hr), hx⟩

/-! ### Trees that can be read -/

/-- The literals that a lexeme stands for. A double must be finite and without the sign
bit: a sign is read as an operator, also that of zero. -/
def Value.Printable : Value → Prop
  | .invalid => False
  | .int n => 0 ≤ n
  | .float x => x.isFinite ∧ x.toBits.toNat < twoTo 63
  | .bool _ => True
  | .text _ => True

/-- The trees with such literals and with operators that the parser takes. -/
def Expr.Printable : Expr → Prop
  | .lit _ v => v.Printable
  | .unary _ op x => op ∈ prefixOperators ∧ x.Printable
  | .binary _ op x y => 0 < op.precedence ∧ x.Printable ∧ y.Printable
  | .hole => False
  | .foreign _ => False

theorem nonneg_ofNat {k : Nat} (h : k < twoTo 63) : 0 ≤ Int64.ofNat k := by
  rw [Int64.le_iff_toInt_le, Int64.toInt_ofNat_of_lt h, Int64.toInt_zero]
  exact Int.natCast_nonneg k

theorem Spells.printable {l : List Char} {v : Value} {n : String} (h : Spells l .literal v n) :
    v.Printable := by
  cases h with
  | symbol hk => exact absurd hk (by decide)
  | keyword hk => exact absurd hk (by decide)
  | truth => trivial
  | text => trivial
  | number hnum =>
    cases hnum with
    | int _ _ hlt => exact nonneg_ofNat hlt
    | float _ _ _ hx =>
      exact (lt_infinityPattern_iff _).mp (Decimal.lt_infinityPattern_of_nearest? hx)

/-- A phrase with such literals derives such a tree. -/
theorem Derives.printable {n : Nonterminal} {u : List Token} {x : Expr} (d : Derives n u x)
    (h : ∀ t ∈ u, t.kind = .literal → t.value.Printable) : x.Printable := by
  induction d with
  | tighter _ _ ih => exact ih h
  | operation _ ht _ ihx ihy =>
    exact ⟨(Nonterminal.mem_operators_iff.mp ht).1, ihx fun t hu => h t (by simp [hu]),
      ihy fun t hv => h t (by simp [hv])⟩
  | prefixed ht _ ih => exact ⟨ht, ih fun t hu => h t (by simp [hu])⟩
  | literal ht => exact h _ (by simp) ht
  | parens _ _ _ ih => exact ih fun t hu => h t (by simp [hu])

/-! ### Literals as text -/

theorem quoted_flatMap_sourceChar : ∀ cs : List Char, Quoted (cs.flatMap sourceChar) cs
  | [] => .nil
  | c :: cs => by
    have ih := quoted_flatMap_sourceChar cs
    rw [List.flatMap_cons, sourceChar]
    split
    · next hc => exact hc ▸ ih.newline
    · next hn =>
      split
      · next hc => 
        refine ih.escaped ?_
        rintro rfl
        simp at hc
      · next hc =>
        obtain ⟨hq, hb⟩ : c ≠ '\'' ∧ c ≠ '\\' := by simpa using hc
        exact ih.plain hq hb

theorem numeral_int {n : Int64} (h : 0 ≤ n) : Numeral (toString n.toInt).toList (.int n) := by
  rw [Int64.le_iff_toInt_le, Int64.toInt_zero] at h
  have hlt := n.toInt_lt
  obtain ⟨k, hk⟩ := Int.eq_ofNat_of_zero_le h
  have hk63 : k < twoTo 63 := by
    have hpow : twoTo 63 = 2 ^ 63 := rfl
    omega
  have hn : n = Int64.ofNat k := by
    rw [← Int64.toInt_inj, hk, Int64.toInt_ofNat_of_lt hk63]
  have hdigits : (toString n.toInt).toList = Nat.toDigits 10 k := by
    rw [hk]
    exact Nat.toList_repr
  have hnum : Numeral (Nat.toDigits 10 k) (.int (Int64.ofNat (Nat.ofDigitChars 10 (Nat.toDigits 10 k) 0))) := by
    refine .int Nat.toDigits_ne_nil (fun c hc => isAsciiDigit_of_mem_toDigits hc) ?_
    rwa [Nat.ofDigitChars_ten_toDigits]
  rwa [Nat.ofDigitChars_ten_toDigits, ← hn, ← hdigits] at hnum

/-- A literal is written as a lexeme for it. -/
theorem Value.spells_source {v : Value} (h : v.Printable) : Spells v.source.toList .literal v "" := by
  cases v with
  | invalid => exact h.elim
  | int n => exact .number (numeral_int h)
  | float x => exact .number (numeral_floatText ((lt_infinityPattern_iff x).mpr h))
  | bool b => exact .truth b
  | text s =>
    have hs := Spells.text (quoted_flatMap_sourceChar s.toList)
    rw [String.ofList_toList] at hs
    rw [Value.source, quoteSource, String.toList_ofList]
    exact hs

/-! ### The text of a tree, lexeme by lexeme -/

/-- A lexeme that carries nothing. -/
def plainPiece (blanks : List Char) (k : TokenKind) : Piece := ⟨blanks, k.spelling.toList, k, .invalid, ""⟩

/-- The blanks after a prefix operator. -/
def prefixBlanks (op : TokenKind) : List Char := if op.isKeyword then [' '] else []

/-- The lexemes of a printed tree, the first of them after `blanks`. -/
def Expr.pieces (blanks : List Char) : Expr → List Piece
  | .lit _ v => [⟨blanks, v.source.toList, .literal, v, ""⟩]
  | .unary _ op x => plainPiece blanks .leftParen :: plainPiece [] op ::
      (x.pieces (prefixBlanks op) ++ [plainPiece [] .rightParen])
  | .binary _ op x y => plainPiece blanks .leftParen :: (x.pieces [] ++ plainPiece [' '] op ::
      (y.pieces [' '] ++ [plainPiece [] .rightParen]))
  | .hole => []
  | .foreign _ => []

/-- The token of a piece, without a place. -/
def Piece.token (p : Piece) : Token := { kind := p.kind, value := p.value, name := p.name }

theorem Derives.of_primary {u : List Token} {x : Expr} (d : Derives .primary u x) (n : Nonterminal) :
    Derives n u x :=
  have hrank : n.rank ≤ Nonterminal.primary.rank := n.rank_le
  d.loosen hrank

theorem derives_parens {n : Nonterminal} {u : List Token} {x : Expr} (d : Derives n u x)
    (blanks : List Char) : Derives .primary
      ((plainPiece blanks .leftParen).token :: (u ++ [(plainPiece [] .rightParen).token])) x :=
  .parens rfl (d.loosen (Nat.zero_le _)) rfl

theorem derives_pieces {t : Expr} (h : t.Printable) : ∀ blanks : List Char,
    Derives .primary ((t.pieces blanks).map Piece.token) t.unplaced := by
  induction t with
  | lit => exact fun _ => .literal rfl
  | unary p op x ih =>
    intro blanks
    obtain ⟨hop, hx⟩ := h
    have dop : Derives .unary ((plainPiece [] op).token :: _) (Expr.unary p op x).unplaced :=
      .prefixed hop ((ih hx (prefixBlanks op)).of_primary _)
    simpa [Expr.pieces] using derives_parens dop blanks
  | binary p op x y ihx ihy =>
    intro blanks
    obtain ⟨hop, hx, hy⟩ := h
    obtain ⟨n, hn⟩ := Nonterminal.exists_mem_operators hop
    have dop : Derives n (_ ++ (plainPiece [' '] op).token :: _) (Expr.binary p op x y).unplaced :=
      .operation ((ihx hx []).of_primary n) hn ((ihy hy [' ']).of_primary n.next)
    simpa [Expr.pieces] using derives_parens dop blanks
  | hole => exact h.elim
  | foreign => exact h.elim

/-- A blank, a newline, a closing parenthesis or the end comes next: no lexeme goes on
there. -/
def Separated (rest : List Char) : Prop := ∀ c ∈ rest.head?, c = ' ' ∨ c = '\n' ∨ c = ')'

theorem separated_blank (rest : List Char) : Separated (' ' :: rest) := by
  simp [Separated]

theorem separated_newline (rest : List Char) : Separated ('\n' :: rest) := by
  simp [Separated]

theorem separated_rightParen (rest : List Char) : Separated (')' :: rest) := by
  simp [Separated]

theorem Separated.maximal {rest : List Char} (h : Separated rest) (l : List Char) : Maximal l rest where
  word := fun _ _ _ d hd => by obtain rfl | rfl | rfl := h d hd <;> decide
  number := fun _ _ _ d hd => by obtain rfl | rfl | rfl := h d hd <;> decide
  less := fun _ d hd => by obtain rfl | rfl | rfl := h d hd <;> decide
  greater := fun _ d hd => by obtain rfl | rfl | rfl := h d hd <;> decide

theorem maximal_leftParen (rest : List Char) : Maximal ['('] rest :=
  .of_symbol (by decide) (by decide) (by simp) (by simp)

theorem maximal_prefixOperator {op : TokenKind} (hop : op ∈ prefixOperators) (rest : List Char) :
    Maximal op.spelling.toList (prefixBlanks op ++ rest) := by
  simp only [prefixOperators, List.mem_cons, List.not_mem_nil, or_false] at hop
  obtain rfl | rfl | rfl := hop
  · exact (separated_blank rest).maximal _
  · exact (separated_blank rest).maximal _
  · exact .of_symbol (c := '-') (by decide) (by decide) (by simp) (by simp)

theorem toList_prefixSource (op : TokenKind) :
    (prefixSource op).toList = op.spelling.toList ++ prefixBlanks op := by
  unfold prefixSource prefixBlanks
  split <;> simp

theorem isSpacing_prefixBlanks (op : TokenKind) : ∀ c ∈ prefixBlanks op, isSpacing c := by
  unfold prefixBlanks
  split
  · exact isSpacing_blank
  · exact isSpacing_nil

theorem symbol_or_keyword_of_mem {op : TokenKind} (hop : op ∈ prefixOperators) :
    op ∈ symbols ∨ op ∈ TokenKind.keywords :=
  (by decide : ∀ k ∈ prefixOperators, k ∈ symbols ∨ k ∈ TokenKind.keywords) op hop

theorem mem_symbols_of_precedence {op : TokenKind} (h : 0 < op.precedence) : op ∈ symbols := by
  cases op <;> simp_all [TokenKind.precedence, symbols]

theorem Split.plain (k : TokenKind) {blanks rest w : List Char} {ps : List Piece}
    (hk : k ∈ symbols ∨ k ∈ TokenKind.keywords) (hb : ∀ c ∈ blanks, isSpacing c)
    (hmax : Maximal k.spelling.toList rest) (hs : Split rest ps w) :
    Split (blanks ++ (k.spelling.toList ++ rest)) (plainPiece blanks k :: ps) w :=
  .more (p := plainPiece blanks k) hb (hk.elim .symbol .keyword) hmax hs

/-- The text of a tree splits into its lexemes. -/
theorem split_pieces {t : Expr} (h : t.Printable) : ∀ {blanks rest w : List Char} {ps : List Piece},
    (∀ c ∈ blanks, isSpacing c) → Separated rest → Split rest ps w →
      Split (blanks ++ (t.source.toList ++ rest)) (t.pieces blanks ++ ps) w := by
  induction t with
  | lit p v =>
    intro blanks rest w ps hb hrest hs
    exact .more (p := ⟨blanks, v.source.toList, .literal, v, ""⟩) hb (Value.spells_source h)
      (hrest.maximal _) hs
  | unary p op x ih =>
    intro blanks rest w ps hb hrest hs
    obtain ⟨hop, hx⟩ := h
    have hkind := symbol_or_keyword_of_mem hop
    have hclose := Split.plain .rightParen (.inl (by decide)) isSpacing_nil (hrest.maximal _) hs
    have hx := ih hx (isSpacing_prefixBlanks op) (separated_rightParen rest) hclose
    have hop := Split.plain op hkind isSpacing_nil (maximal_prefixOperator hop _) hx
    have hopen := Split.plain .leftParen (.inl (by decide)) hb (maximal_leftParen _) hop
    simpa [Expr.source, Expr.pieces, toList_prefixSource, TokenKind.spelling] using hopen
  | binary p op x y ihx ihy =>
    intro blanks rest w ps hb hrest hs
    obtain ⟨hop, hx, hy⟩ := h
    have hclose := Split.plain .rightParen (.inl (by decide)) isSpacing_nil (hrest.maximal _) hs
    have hy := ihy hy isSpacing_blank (separated_rightParen rest) hclose
    have hop := Split.plain op (.inl (mem_symbols_of_precedence hop)) isSpacing_blank
      ((separated_blank _).maximal _) hy
    have hx := ihx hx isSpacing_nil (separated_blank _) hop
    have hopen := Split.plain .leftParen (.inl (by decide)) hb (maximal_leftParen _) hx
    simpa [Expr.source, Expr.pieces, TokenKind.spelling] using hopen
  | hole => exact h.elim
  | foreign => exact h.elim

/-! ### From the text to the tree -/

/-- The tokens of pieces, places apart, and then the end. -/
theorem exists_tokensOf_eq (file : String) (w : List Char) : ∀ (ps : List Piece) (before : List Char),
    ∃ body stop, tokensOf file before ps w = body ++ [stop] ∧
      body.map Token.unplaced = ps.map Piece.token ∧ stop.kind = .eof
  | [], _ => ⟨[], _, rfl, rfl, rfl⟩
  | p :: ps, before => by
    obtain ⟨body, stop, heq, hbody, hstop⟩ := exists_tokensOf_eq file w ps (before ++ (p.blanks ++ p.lexeme))
    refine ⟨⟨p.kind, .after file (before ++ p.blanks), p.value, p.name⟩ :: body, stop, ?_, ?_, hstop⟩
    · rw [tokensOf, heq, List.cons_append]
    · rw [List.map_cons, List.map_cons, hbody]
      rfl

theorem Split.spells_of_mem {cs w : List Char} {ps : List Piece} (h : Split cs ps w) :
    ∀ p ∈ ps, Spells p.lexeme p.kind p.value p.name := by
  induction h with
  | done => simp
  | more _ hs _ _ ih =>
    intro p hp
    rcases List.mem_cons.mp hp with rfl | hp
    · exact hs
    · exact ih p hp

theorem Spells.kind_ne_eof {l : List Char} {k : TokenKind} {v : Value} {n : String} (h : Spells l k v n) :
    k ≠ .eof := by
  rintro rfl
  cases h with
  | symbol hk => exact absurd hk (by decide)
  | keyword hk => exact absurd hk (by decide)

theorem exists_piece_of_mem {body : List Token} {ps : List Piece}
    (h : body.map Token.unplaced = ps.map Piece.token) {t : Token} (ht : t ∈ body) :
    ∃ p ∈ ps, p.token = t.unplaced :=
  List.mem_map.mp (h ▸ List.mem_map_of_mem ht)

theorem Piece.eq_of_token_eq {p : Piece} {t : Token} (h : p.token = t.unplaced) :
    p.kind = t.kind ∧ p.value = t.value :=
  ⟨(congrArg Token.kind h : p.token.kind = t.unplaced.kind),
    (congrArg Token.value h : p.token.value = t.unplaced.value)⟩

theorem terminated_of_split {cs w : List Char} {ps : List Piece} (h : Split cs ps w) {body : List Token}
    {stop : Token} (hbody : body.map Token.unplaced = ps.map Piece.token) (hstop : stop.kind = .eof) :
    Terminated (body ++ [stop]) := by
  refine ⟨body, stop, rfl, fun t ht => ?_, hstop⟩
  obtain ⟨p, hp, heq⟩ := exists_piece_of_mem hbody ht
  exact (Piece.eq_of_token_eq heq).1 ▸ (h.spells_of_mem p hp).kind_ne_eof

theorem parseSource_eq_ok_iff {file src : String} {t : Expr} :
    parseSource file src = .ok t ↔ ∃ ts, scan file src = .ok ts ∧ parseTokens ts = .ok t := by
  unfold parseSource
  cases scan file src with
  | error e => simp
  | ok ts => cases hp : parseTokens ts <;> simp [hp, Except.mapError]

/-- What was parsed can be printed. -/
theorem printable_of_parseSource {file src : String} {t : Expr} (h : parseSource file src = .ok t) :
    t.Printable := by
  obtain ⟨ts, hscan, hparse⟩ := parseSource_eq_ok_iff.mp h
  obtain ⟨ps, w, hsplit, rfl⟩ := scan_eq_ok_iff.mp hscan
  obtain ⟨body, stop, heq, hbody, hstop⟩ := exists_tokensOf_eq file w ps []
  rw [heq] at hparse
  obtain ⟨m, u, n, stop', hts, -, d, -, -⟩ :=
    (parseTokens_eq_ok_iff (terminated_of_split hsplit hbody hstop)).mp hparse
  obtain ⟨rfl, -⟩ := List.append_inj' hts rfl
  refine d.printable fun t ht hk => ?_
  obtain ⟨p, hp, hpt⟩ := exists_piece_of_mem hbody (by simp [ht] : t ∈ m ++ u ++ n)
  have hs := hsplit.spells_of_mem p hp
  obtain ⟨hkind, hvalue⟩ := Piece.eq_of_token_eq hpt
  rw [hkind, hk] at hs
  exact hvalue ▸ hs.printable

theorem Expr.unplaced_unplaced (x : Expr) : x.unplaced.unplaced = x.unplaced := by
  induction x with
  | lit | hole | foreign => rfl
  | unary _ _ _ ih => simp [unplaced, ih]
  | binary _ _ _ _ ihx ihy => simp [unplaced, ihx, ihy]

/-- A text that splits into the lexemes of a phrase is parsed to the tree of the phrase,
places apart. -/
theorem exists_parseSource_of_split (file : String) {src : String} {ps : List Piece} {w : List Char}
    (hsplit : Split src.toList ps w) {n : Nonterminal} {t : Expr} (d : Derives n (ps.map Piece.token) t) :
    ∃ t', parseSource file src = .ok t' ∧ t'.unplaced = t.unplaced := by
  obtain ⟨body, stop, heq, hbody, hstop⟩ := exists_tokensOf_eq file w ps []
  have hplaces : body.map Token.unplaced = (ps.map Piece.token).map Token.unplaced := by
    rw [hbody, List.map_map]
    rfl
  obtain ⟨t', d', ht'⟩ := d.of_unplaced hplaces
  have hparse : parseTokens (body ++ [stop]) = .ok t' :=
    (parseTokens_eq_ok_iff (terminated_of_split hsplit hbody hstop)).mpr
      ⟨[], body, [], stop, by simp, by simp, d'.loosen (Nat.zero_le _), by simp, hstop⟩
  exact ⟨t', parseSource_eq_ok_iff.mpr ⟨_, scan_eq_ok_iff.mpr ⟨_, _, hsplit, rfl⟩, heq ▸ hparse⟩, ht'⟩

/-- What is printed is parsed to the same tree, places apart. -/
theorem exists_parseSource_source (file : String) {t : Expr} (h : t.Printable) :
    ∃ t', parseSource file t.source = .ok t' ∧ t'.unplaced = t.unplaced := by
  have hsplit : Split t.source.toList (t.pieces []) [] := by
    simpa using split_pieces h isSpacing_nil (by simp [Separated]) (.done isSpacing_nil)
  have hparse := exists_parseSource_of_split file hsplit (derives_pieces h [])
  rwa [Expr.unplaced_unplaced] at hparse

/-- **Printing then parsing is the identity on trees, places apart.** Every tree that was
parsed is printable. Every printable tree is parsed from what it is printed as, to the
same tree but for places; so it has the same value, or the same error but for its
place. -/
theorem source_parses_back (file : String) :
    (∀ src t, parseSource file src = .ok t → t.Printable) ∧
      ∀ t : Expr, t.Printable → ∃ t', parseSource file t.source = .ok t' ∧ t'.unplaced = t.unplaced ∧
        t'.eval.mapError EvalError.unplaced = t.eval.mapError EvalError.unplaced := by
  refine ⟨fun _ _ => printable_of_parseSource, fun t ht => ?_⟩
  obtain ⟨t', hparse, htree⟩ := exists_parseSource_source file ht
  exact ⟨t', hparse, htree, by rw [← Expr.eval_unplaced, htree, Expr.eval_unplaced]⟩

/-- The tree of `((AND 'it\'s\\') < (-0.5))`. -/
def comparisonTree : Expr :=
  .binary {} .less (.unary {} .andOp (.lit {} (.text "it's\\")))
    (.unary {} .minus (.lit {} (.float (Float.ofBits 0x3FE0000000000000))))

theorem comparisonTree_parses_back : comparisonTree.Printable ∧
    ∃ t', parseSource "in" comparisonTree.source = .ok t' ∧ t'.Printable ∧
      t'.unplaced = comparisonTree.unplaced ∧
      t'.eval.mapError EvalError.unplaced = comparisonTree.eval.mapError EvalError.unplaced := by
  have hprintable : comparisonTree.Printable :=
    ⟨by decide, ⟨by decide, trivial⟩, by decide, by decide +kernel, by decide +kernel⟩
  obtain ⟨hparsed, hback⟩ := source_parses_back "in"
  obtain ⟨t', hparse, htree, heval⟩ := hback comparisonTree hprintable
  exact ⟨hprintable, t', hparse, hparsed _ t' hparse, htree, heval⟩

end Pseudocode
