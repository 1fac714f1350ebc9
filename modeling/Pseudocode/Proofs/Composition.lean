/-
# Runs of composed sources

A source in parentheses is an operand, whatever is in it: the parentheses keep its tokens
apart from those around it, and its tree stands as one under the operator. So the run of
two sources with an operator between them, or of one behind a prefix operator, is known
from the runs of the sources: it applies the operator to their values, or ends with the
first error of them, which only stands further on (`run_is_compositional`).

The tokens of a text built from parts are those of the parts, as long as every part gives
the same ones whatever follows it (`Yields`). Parentheses make a source such a part
(`yields_enclosed`).

Key definitions: `Yields`, `enclosed`, `Operand`.
Key theorems: `Derives.moved`, `yields_enclosed`, `parse_operation`, `parse_prefixed`,
`run_is_compositional`.
-/
import Pseudocode.Proofs.RunReport
import Pseudocode.Proofs.SeparatedSources

namespace Pseudocode

/-! ### Reading a text part by part -/

/-- Reading `s` behind `before` gives the tokens `ts`, whatever follows. -/
def Yields (file before s : String) (ts : List Token) : Prop :=
  ∀ later : List Char, (Scanner.mk (.after file before.toList) (s.toList ++ later)).tokens =
    (Scanner.mk (.after file (before ++ s).toList) later).tokens.map (ts ++ ·)

theorem Yields.append {file before s s' : String} {ts ts' : List Token} (h : Yields file before s ts)
    (h' : Yields file (before ++ s) s' ts') : Yields file before (s ++ s') (ts ++ ts') := by
  intro later
  rw [String.toList_append, List.append_assoc, h, h', String.append_assoc, map_append_map]

theorem yields_blanks (file before : String) {s : String} (hs : ∀ c ∈ s.toList, isSpacing c) :
    Yields file before s [] := by
  intro later
  rw [Scanner.tokens_append_blanks _ hs, Pos.advanceBy_after, String.toList_append]
  cases (Scanner.mk (.after file (before.toList ++ s.toList)) later).tokens <;> rfl

/-- A symbol or keyword, and a text behind it that it does not go on with. -/
theorem Yields.plain {file before rest : String} {ts : List Token} (k : TokenKind)
    (hk : k ∈ symbols ∨ k ∈ TokenKind.keywords)
    (hmax : ∀ later, Maximal k.spelling.toList (rest.toList ++ later))
    (h : Yields file (before ++ k.spelling) rest ts) :
    Yields file before (k.spelling ++ rest) ({ kind := k, pos := .after file before.toList } :: ts) := by
  intro later
  have hleads : Leads (k.spelling.toList ++ (rest.toList ++ later)) [plainPiece [] k]
      (rest.toList ++ later) :=
    .more (p := plainPiece [] k) isSpacing_nil (hk.elim .symbol .keyword) (hmax later) .done
  have htext : textOf [plainPiece [] k] = k.spelling.toList := List.append_nil _
  have htoken : placedTokens file before.toList [plainPiece [] k] =
      [{ kind := k, pos := .after file before.toList }] := by
    simp [placedTokens, plainPiece]
  rw [String.toList_append, List.append_assoc, hleads.tokens_eq, htext, ← String.toList_append, h,
    String.append_assoc, map_append_map, htoken, List.singleton_append]

/-- A source, and a text behind it that its last lexeme does not go on with. -/
theorem Yields.scanned {file s : String} {body : List Token} {stop : Token}
    (hscan : scan file s = .ok (body ++ [stop])) {before rest : String} {ts : List Token}
    (hrest : ∀ later, Separated (rest.toList ++ later)) (h : Yields file (before ++ s) rest ts) :
    Yields file before (s ++ rest) (body.map (Token.moved (Pos.behind before.toList)) ++ ts) := by
  intro later
  rw [String.toList_append, List.append_assoc, scan_front hscan (hrest later), ← String.toList_append, h,
    String.append_assoc, map_append_map]

/-- A text that is read to its end. -/
theorem Yields.scan_eq {file src : String} {ts : List Token} (h : Yields file "" src ts) :
    scan file src = .ok (ts ++ [{ kind := .eof, pos := .after file src.toList }]) := by
  have hall := h []
  rw [List.append_nil, String.empty_append, Scanner.tokens_blank _ isSpacing_nil] at hall
  exact hall

/-! ### Operands -/

/-- A source that parses and has no line breaks outside texts. -/
structure Operand (file s : String) : Prop where
  parses : ∃ x, parseSource file s = .ok x
  oneLine : ∀ ts, scan file s = .ok ts → ∀ t ∈ ts, t.kind ≠ .newline

def spaces (n : Nat) : String := String.ofList (List.replicate n ' ')

/-- The opening parenthesis with `n` blanks behind it. -/
def opening (n : Nat) : String := "(" ++ spaces n

/-- The source in parentheses, with `n` blanks inside them on either side. -/
def enclosed (n : Nat) (s : String) : String := opening n ++ s ++ spaces n ++ ")"

theorem isSpacing_spaces (n : Nat) : ∀ c ∈ (spaces n).toList, isSpacing c := by
  intro c hc
  rw [spaces, String.toList_ofList] at hc
  exact isSpacing_blank c (List.mem_singleton.mpr (List.eq_of_mem_replicate hc))

theorem separated_spaces (n : Nat) (later : List Char) :
    Separated ((spaces n ++ ")").toList ++ later) := by
  cases n with
  | zero => exact separated_rightParen later
  | succ n =>
    rw [spaces, String.toList_append, String.toList_ofList]
    exact separated_blank _

/-- No newline is in the tokens of an operand, so all of them are its phrase. -/
theorem Operand.exists_derives {file s : String} (h : Operand file s) : ∃ u stop x,
    scan file s = .ok (u ++ [stop]) ∧ parseTokens (u ++ [stop]) = .ok x ∧ Derives .expression u x := by
  obtain ⟨x, hx⟩ := h.parses
  obtain ⟨ts, hscan, hparse⟩ := parseSource_eq_ok_iff.mp hx
  obtain ⟨m, u, n, stop, rfl, hm, d, hn, -⟩ := (parseTokens_eq_ok_iff (terminated_of_scan hscan)).mp hparse
  have hnone := h.oneLine _ hscan
  obtain rfl : m = [] :=
    List.eq_nil_iff_forall_not_mem.mpr fun t ht => hnone t (by simp [ht]) (hm t ht)
  obtain rfl : n = [] :=
    List.eq_nil_iff_forall_not_mem.mpr fun t ht => hnone t (by simp [ht]) (hn t ht)
  rw [List.nil_append, List.append_nil] at hscan hparse
  exact ⟨u, stop, x, hscan, hparse, d⟩

/-- A phrase that stands elsewhere is a phrase. -/
theorem Derives.moved {n : Nonterminal} {u : List Token} {x : Expr} (d : Derives n u x) (f : Pos → Pos) :
    Derives n (u.map (Token.moved f)) (x.moved f) := by
  induction d with
  | tighter hn _ ih => exact .tighter hn ih
  | @operation n u v x y t _ hop _ ihx ihy =>
    rw [List.map_append, List.map_cons]
    exact .operation (t := t.moved f) ihx hop ihy
  | @prefixed u x t hop _ ih => exact .prefixed (t := t.moved f) hop ih
  | @literal t ht => exact .literal (t := t.moved f) ht
  | @parens l r u x hl _ hr ih =>
    rw [List.map_append, List.map_cons]
    exact .parens (l := l.moved f) (r := r.moved f) hl ih hr

theorem maximal_rightParen (rest : List Char) : Maximal [')'] rest :=
  .of_symbol (by decide) (by decide) (by simp) (by simp)

/-- **A source in parentheses is read as a primary phrase, wherever it stands.** -/
theorem yields_enclosed {file s : String} {u : List Token} {stop : Token} {x : Expr}
    (hscan : scan file s = .ok (u ++ [stop])) (d : Derives .expression u x) (n : Nat) (before : String) :
    ∃ ts, Yields file before (enclosed n s) ts ∧
      Derives .primary ts (x.moved (Pos.behind (before ++ opening n).toList)) := by
  have hopen : Yields file before (opening n) [{ kind := .leftParen, pos := .after file before.toList }] :=
    .plain .leftParen (.inl (by decide)) (fun _ => maximal_leftParen _)
      (yields_blanks file _ (isSpacing_spaces n))
  have hparen : ∀ before, Yields file before ")"
      [{ kind := .rightParen, pos := .after file before.toList }] := fun _ =>
    .plain .rightParen (.inl (by decide))
      (fun _ => maximal_rightParen _) (yields_blanks file _ (s := "") isSpacing_nil)
  have hclose := (yields_blanks file (before ++ opening n ++ s) (isSpacing_spaces n)).append (hparen _)
  have hsource := Yields.scanned hscan (separated_spaces n) hclose
  have htext : enclosed n s = opening n ++ (s ++ (spaces n ++ ")")) := by
    simp only [enclosed, String.append_assoc]
  rw [htext]
  exact ⟨_, hopen.append hsource, .parens rfl (d.moved _) rfl⟩

/-! ### Composed sources -/

/-- Blanks or a parenthesis end a prefix operator. -/
theorem maximal_spaces_opening {op : TokenKind} (hop : op ∈ prefixOperators) (m : Nat) (rest : List Char) :
    Maximal op.spelling.toList ((spaces m).toList ++ '(' :: rest) := by
  cases m with
  | zero =>
    simp only [prefixOperators, List.mem_cons, List.not_mem_nil, or_false] at hop
    obtain rfl | rfl | rfl := hop
    · exact .of_word (c := 'N') (by decide) (by rintro _ ⟨⟩; decide)
    · exact .of_word (c := 'A') (by decide) (by rintro _ ⟨⟩; decide)
    · exact .of_symbol (c := '-') (by decide) (by decide) (by simp) (by simp)
  | succ m =>
    rw [spaces, String.toList_ofList]
    exact (separated_blank _).maximal _

/-- A text whose tokens are a phrase parses to its tree. -/
theorem Yields.parse_eq {file src : String} {n : Nonterminal} {u : List Token} {x : Expr}
    (h : Yields file "" src u) (d : Derives n u x) :
    ∃ ts, scan file src = .ok ts ∧ parseTokens ts = .ok x := by
  refine ⟨_, h.scan_eq, (parseTokens_eq_ok_iff (terminated_of_scan h.scan_eq)).mpr ?_⟩
  have hempty : ∀ t ∈ ([] : List Token), t.kind = .newline := by simp
  refine ⟨[], u, [], { kind := .eof, pos := .after file src.toList }, ?_, hempty, d.loosen (Nat.zero_le _),
    hempty, rfl⟩
  rw [List.nil_append, List.append_nil]

/-- Two sources in parentheses with an operator between them. -/
def operationText (n : Nat) (op : TokenKind) (s t : String) : String :=
  enclosed n s ++ " " ++ op.spelling ++ " " ++ enclosed n t

/-- A source in parentheses behind a prefix operator and `m` blanks. -/
def prefixedText (m n : Nat) (op : TokenKind) (s : String) : String :=
  op.spelling ++ spaces m ++ enclosed n s

section
variable {file s t : String} {u u' : List Token} {stop stop' : Token} {x y : Expr}

/-- Two sources with an operator between them are an operation on their trees. -/
theorem parse_operation (hs : scan file s = .ok (u ++ [stop])) (dx : Derives .expression u x)
    (ht : scan file t = .ok (u' ++ [stop'])) (dy : Derives .expression u' y) {op : TokenKind}
    (hop : 0 < op.precedence) (n : Nat) :
    ∃ ts, scan file (operationText n op s t) = .ok ts ∧
      parseTokens ts = .ok (.binary (.after file (enclosed n s ++ " ").toList) op
        (x.moved (Pos.behind (opening n).toList))
        (y.moved (Pos.behind (enclosed n s ++ " " ++ op.spelling ++ " " ++ opening n).toList))) := by
  have hblank : ∀ before, Yields file before " " [] := fun before =>
    yields_blanks file before isSpacing_blank
  have hsign : ∀ before, Yields file before (op.spelling ++ " ")
      [{ kind := op, pos := .after file before.toList }] := fun _ =>
    .plain op (.inl (mem_symbols_of_precedence hop)) (fun _ => (separated_blank _).maximal _) (hblank _)
  -- both operands are primary phrases, which every level takes on either side
  obtain ⟨l, hl, dl⟩ := yields_enclosed hs dx n ""
  obtain ⟨r, hr, dr⟩ := yields_enclosed ht dy n ("" ++ enclosed n s ++ " " ++ (op.spelling ++ " "))
  obtain ⟨level, hlevel⟩ := Nonterminal.exists_mem_operators hop
  have dop := Derives.operation (t := { kind := op, pos := .after file ("" ++ enclosed n s ++ " ").toList })
    (dl.of_primary level) hlevel (dr.of_primary level.next)
  have hall := hl.append ((hblank _).append ((hsign _).append hr))
  simp only [String.empty_append, ← String.append_assoc] at dop hall
  exact hall.parse_eq dop

/-- A source behind a prefix operator is that operation on its tree. -/
theorem parse_prefixed (hs : scan file s = .ok (u ++ [stop])) (dx : Derives .expression u x)
    {op : TokenKind} (hop : op ∈ prefixOperators) (m n : Nat) :
    ∃ ts, scan file (prefixedText m n op s) = .ok ts ∧
      parseTokens ts = .ok (.unary (.start file) op
        (x.moved (Pos.behind (op.spelling ++ spaces m ++ opening n).toList))) := by
  obtain ⟨l, hl, dl⟩ := yields_enclosed hs dx n ("" ++ op.spelling ++ spaces m)
  have hmax : ∀ later, Maximal op.spelling.toList ((spaces m ++ enclosed n s).toList ++ later) := by
    intro later
    have hopening : ∃ rest, (enclosed n s).toList ++ later = '(' :: rest := by
      simp [enclosed, opening]
    obtain ⟨rest, hrest⟩ := hopening
    rw [String.toList_append, List.append_assoc, hrest]
    exact maximal_spaces_opening hop m rest
  have hall := Yields.plain op (symbol_or_keyword_of_mem hop) hmax
    ((yields_blanks file _ (isSpacing_spaces m)).append hl)
  have dop := Derives.prefixed (t := { kind := op, pos := .start file }) hop (dl.of_primary .unary)
  simp only [String.empty_append, ← String.append_assoc] at dop hall
  exact hall.parse_eq dop

end

/-! ### Runs -/

/-- The failure of an operation. -/
def Failure.ofRuntime (e : RuntimeError) : Failure := .staged .interpreter (.runtime e)

section
variable {file src : String} {ts : List Token} {x : Expr}

theorem eval_eq_ok_of_outcome (hscan : scan file src = .ok ts) (hparse : parseTokens ts = .ok x) {v : Value}
    (h : (runSource file src).outcome = .ok v) : x.eval = .ok v := by
  rw [outcome_of_parse hscan hparse] at h
  cases hx : x.eval with
  | error e => simp [hx, Except.mapError] at h
  | ok w => simpa [hx, Except.mapError] using h

/-- What was parsed fails with an operation only. -/
theorem eval_eq_error_of_outcome (hscan : scan file src = .ok ts) (hparse : parseTokens ts = .ok x)
    {f : Failure} (h : (runSource file src).outcome = .error f) :
    ∃ e, f = .ofRuntime e ∧ x.eval = .error (.runtime e) := by
  rw [outcome_of_parse hscan hparse] at h
  have hx := printable_of_parseSource (parseSource_eq_ok_iff.mpr ⟨ts, hscan, hparse⟩)
  obtain ⟨v, hv, -⟩ | ⟨e, he⟩ := hx.eval_cases
  · simp [hv, Except.mapError] at h
  · rw [he] at h
    exact ⟨e, (Except.error.inj h).symm, he⟩

end

/-- **Runs are compositional.** Let two sources parse and have no line breaks outside
texts, and let them stand in parentheses with a binary operator between them. If both have
a value, the run applies the operator to the values as its table says, with the error at
the operator if it is not defined there. If the first source fails, the run fails with its
error, and if only the second one does, with that one's; the place alone is another one.
The same goes for one source behind a prefix operator, whose rule is `negation`. -/
theorem run_is_compositional {file s t : String} (hs : Operand file s) (ht : Operand file t) (n : Nat) :
    (∃ table, operatorTable = .ok table ∧ ∀ op : TokenKind, 0 < op.precedence →
      (∀ v w, (runSource file s).outcome = .ok v → (runSource file t).outcome = .ok w →
        table.apply op v w = .ok (replyOf (applyBinary op v w)) ∧
        (runSource file (operationText n op s t)).outcome = (applyBinary op v w).mapError fun fault =>
          .ofRuntime ⟨.ofOperation fault, .after file (enclosed n s ++ " ").toList, op, false,
            v.kind, w.kind⟩) ∧
      (∀ f, (runSource file s).outcome = .error f → ∃ e, f = .ofRuntime e ∧
        (runSource file (operationText n op s t)).outcome =
          .error (.ofRuntime (e.moved (Pos.behind (opening n).toList)))) ∧
      ∀ v f, (runSource file s).outcome = .ok v → (runSource file t).outcome = .error f →
        ∃ e, f = .ofRuntime e ∧ (runSource file (operationText n op s t)).outcome =
          .error (.ofRuntime (e.moved
            (Pos.behind (enclosed n s ++ " " ++ op.spelling ++ " " ++ opening n).toList)))) ∧
    ∀ op ∈ prefixOperators, ∀ m,
      (∀ v, (runSource file s).outcome = .ok v →
        negation op v = (applyUnary op v).toOption.elim (.invalid, false) (·, true) ∧
        (runSource file (prefixedText m n op s)).outcome = (applyUnary op v).mapError fun fault =>
          .ofRuntime ⟨.ofOperation fault, .start file, op, true, v.kind, .invalid⟩) ∧
      ∀ f, (runSource file s).outcome = .error f → ∃ e, f = .ofRuntime e ∧
        (runSource file (prefixedText m n op s)).outcome =
          .error (.ofRuntime (e.moved (Pos.behind (op.spelling ++ spaces m ++ opening n).toList))) := by
  obtain ⟨u, stop, x, hscan, hparse, dx⟩ := hs.exists_derives
  obtain ⟨u', stop', y, hscan', hparse', dy⟩ := ht.exists_derives
  refine ⟨⟨fullTable, operatorTable_eq, fun op hop => ?_⟩, fun op hop m => ?_⟩
  · obtain ⟨ts, hts, hboth⟩ := parse_operation hscan dx hscan' dy hop n
    have hrun := outcome_of_parse hts hboth
    rw [Expr.eval, Expr.eval_moved, Expr.eval_moved] at hrun
    refine ⟨fun v w hv hw => ⟨apply_fullTable op v w, ?_⟩, fun f hf => ?_, fun v f hv hf => ?_⟩
    · rw [hrun, eval_eq_ok_of_outcome hscan hparse hv, eval_eq_ok_of_outcome hscan' hparse' hw]
      simp only [Except.mapError, bind, Except.bind, binaryAt]
      cases applyBinary op v w <;> rfl
    · obtain ⟨e, rfl, he⟩ := eval_eq_error_of_outcome hscan hparse hf
      exact ⟨e, rfl, by rw [hrun, he]; rfl⟩
    · obtain ⟨e, rfl, he⟩ := eval_eq_error_of_outcome hscan' hparse' hf
      exact ⟨e, rfl, by rw [hrun, eval_eq_ok_of_outcome hscan hparse hv, he]; rfl⟩
  · obtain ⟨ts, hts, hprefixed⟩ := parse_prefixed hscan dx hop m n
    have hrun := outcome_of_parse hts hprefixed
    rw [Expr.eval, Expr.eval_moved] at hrun
    refine ⟨fun v hv => ⟨negation_eq op v, ?_⟩, fun f hf => ?_⟩
    · rw [hrun, eval_eq_ok_of_outcome hscan hparse hv]
      simp only [Except.mapError, bind, Except.bind, unaryAt]
      cases applyUnary op v <;> rfl
    · obtain ⟨e, rfl, he⟩ := eval_eq_error_of_outcome hscan hparse hf
      exact ⟨e, rfl, by rw [hrun, he]; rfl⟩

/-- A literal alone is an operand and has its own value. -/
theorem literal_operand {s : String} {v : Value} (h : Spells s.toList .literal v "") (file : String) :
    Operand file s ∧ (runSource file s).outcome = .ok v := by
  have hend : Separated [] := by simp [Separated]
  have hsplit : Split s.toList [⟨[], s.toList, .literal, v, ""⟩] [] := by
    simpa using Split.more (p := ⟨[], s.toList, .literal, v, ""⟩) isSpacing_nil h (hend.maximal _)
      (.done isSpacing_nil)
  have hscan : scan file s = .ok (tokensOf file [] _ []) := scan_eq_ok_iff.mpr ⟨_, _, hsplit, rfl⟩
  have hparse : parseTokens (tokensOf file [] [⟨[], s.toList, .literal, v, ""⟩] []) =
      .ok (.lit (.after file []) v) := rfl
  refine ⟨⟨⟨_, parseSource_eq_ok_iff.mpr ⟨_, hscan, hparse⟩⟩, ?_⟩, outcome_of_parse hscan hparse⟩
  intro ts hts t ht
  obtain rfl := Except.ok.inj (hscan.symm.trans hts)
  simp only [tokensOf, List.mem_cons, List.not_mem_nil, or_false] at ht
  obtain rfl | rfl := ht <;> simp

/-- Two texts, the first of them on two lines, can be joined but not compared. -/
theorem run_of_two_texts :
    (runSource "in" (operationText 0 .plus "'a\nb'" "'c'")).outcome = .ok (.text "a\nbc") ∧
    (runSource "in" (operationText 1 .less "'a\nb'" "'c'")).outcome =
      .error (.ofRuntime ⟨.mismatchedType, ⟨"in", 2, 6⟩, .less, false, .text, .text⟩) := by
  have hfirst : Quoted "a\nb".toList "a\nb".toList :=
    .plain (by decide) (by decide) (.plain (by decide) (by decide) (.plain (by decide) (by decide) .nil))
  have hsecond : Quoted "c".toList "c".toList := .plain (by decide) (by decide) .nil
  obtain ⟨hs, hv⟩ := literal_operand (s := "'a\nb'") (.text hfirst) "in"
  obtain ⟨ht, hw⟩ := literal_operand (s := "'c'") (.text hsecond) "in"
  obtain ⟨⟨_, -, hjoin⟩, -⟩ := run_is_compositional hs ht 0
  obtain ⟨⟨_, -, hcompare⟩, -⟩ := run_is_compositional hs ht 1
  exact ⟨((hjoin .plus (by decide)).1 _ _ hv hw).2, ((hcompare .less (by decide)).1 _ _ hv hw).2⟩

end Pseudocode
