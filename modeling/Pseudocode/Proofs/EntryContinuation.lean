/-
# When an entry can be repaired

An entry that does not parse is continued on a further line, or it is not. Where its
lexemes are whole and only the parser fails, the choice is exact: another line is asked for
exactly if some line makes the entry parse (`entry_continues_iff_repairable`). A failure at
the end token is repaired by an operand and closing parentheses (`closingText`); after a
failure before it nothing helps.

Where the text breaks off inside a lexeme, another line is asked for always, and that is
too often. The parser has not seen the tokens in front. A line that repairs the entry
exists exactly if these tokens and the unfinished one still start an expression
(`broken_off_repairable_iff_viable`), and in `1 'a` they do not
(`secondOperand_not_repairable`).

Key definitions: `FurtherLine`, `closingText`.
Key theorems: `entry_continues_iff_repairable`, `broken_off_repairable_iff_viable`.
-/
import Pseudocode.Proofs.SourceExtension
import Pseudocode.Session

namespace Pseudocode

open ParserState

/-! ### Blank texts and commands -/

/-- Trimming keeps the first character that is no blank. -/
theorem head?_trimBlanks (cs : List Char) : (trimBlanks cs).head? = (cs.dropWhile isBlank).head? := by
  have hkept : ∀ c ∈ (cs.dropWhile isBlank).head?, ¬ isBlank c := head?_dropWhile
  have htrim : trimBlanks cs = (cs.dropWhile isBlank).rdropWhile isBlank := rfl
  rw [htrim]
  cases hcs : cs.dropWhile isBlank with
  | nil => simp
  | cons c rest =>
    have hne : (c :: rest).rdropWhile isBlank ≠ [] := by
      rw [ne_eq, List.rdropWhile_eq_nil_iff]
      exact fun h => hkept c (by simp [hcs]) (h c (by simp))
    obtain ⟨d, front, hfront⟩ := List.exists_cons_of_ne_nil hne
    obtain ⟨later, hlater⟩ := List.rdropWhile_prefix isBlank (c :: rest)
    rw [hfront] at hlater ⊢
    simpa using (List.cons.inj hlater).1

theorem isBlankText_iff {s : String} : isBlankText s = true ↔ s.toList.dropWhile isBlank = [] := by
  rw [isBlankText, trimmed, String.isEmpty_iff, String.ofList_eq_empty_iff, ← List.head?_eq_none_iff,
    head?_trimBlanks, List.head?_eq_none_iff]

theorem isCommand_iff {s : String} :
    isCommand s = true ↔ (s.toList.dropWhile isBlank).head? = some ':' := by
  rw [isCommand, trimmed, String.toList_ofList, head?_trimBlanks, beq_iff_eq]

/-- What follows a text that is not blank does not make it a command, nor keep it from
being one. -/
theorem isCommand_append {s : String} (h : isBlankText s = false) (t : String) :
    isCommand (s ++ t) = isCommand s := by
  have hne : s.toList.dropWhile isBlank ≠ [] := fun hnil => by
    simp [isBlankText_iff.mpr hnil] at h
  obtain ⟨c, rest, hc⟩ := List.exists_cons_of_ne_nil hne
  rw [Bool.eq_iff_iff, isCommand_iff, isCommand_iff, String.toList_append, List.dropWhile_append, hc]
  simp

/-- A line that goes on an entry: it has no line break in it and is not blank. -/
structure FurtherLine (s : String) : Prop where
  no_break : '\n' ∉ s.toList
  not_blank : isBlankText s = false

/-! ### The text that completes what is read -/

/-- The lexeme `1`. -/
def onePiece : Piece := ⟨[], ['1'], .literal, .int 1, ""⟩

theorem spells_one : Spells ['1'] .literal (.int 1) "" :=
  .number (.int (by simp) (by simp [isAsciiDigit]) (Nat.one_lt_two_pow (by decide)))

/-- An operand if one has to come, and closing parentheses as many as are open. -/
def closingText (s : ParserState) : List Char :=
  (if s.afterOperand then [] else ['1']) ++ List.replicate s.depth ')'

/-- The lexemes of that text. -/
def closingPieces (s : ParserState) : List Piece :=
  (if s.afterOperand then [] else [onePiece]) ++
    List.replicate s.depth (plainPiece [] .rightParen)

theorem map_kind_closingPieces (s : ParserState) :
    (closingPieces s).map Piece.kind = s.closers.map Token.kind := by
  unfold closingPieces closers
  split <;> simp [plainPiece, onePiece]

theorem separated_replicate (n : Nat) : Separated (List.replicate n ')') := by
  cases n <;> simp [Separated, List.replicate_succ]

theorem split_replicate : ∀ n : Nat,
    Split (List.replicate n ')') (List.replicate n (plainPiece [] .rightParen)) []
  | 0 => .done isSpacing_nil
  | n + 1 => .plain .rightParen (.inl (by decide)) isSpacing_nil ((separated_replicate n).maximal _)
      (split_replicate n)

theorem split_closingText (s : ParserState) : Split (closingText s) (closingPieces s) [] := by
  have hclosing := split_replicate s.depth
  unfold closingText closingPieces
  split
  · exact hclosing
  · exact .more (p := onePiece) isSpacing_nil spells_one ((separated_replicate _).maximal _) hclosing

theorem closers_eq_nil {s : ParserState} (h : closingText s = []) : s.closers = [] := by
  obtain ⟨hoperand, hparens⟩ := List.append_eq_nil_iff.mp h
  have hdepth : s.depth = 0 := by simpa using hparens
  rw [closers, hdepth, List.replicate_zero, List.append_nil]
  split at hoperand <;> simp_all

theorem mem_closingText {s : ParserState} {c : Char} (h : c ∈ closingText s) : c = '1' ∨ c = ')' := by
  simp only [closingText, List.mem_append, List.mem_replicate] at h
  rcases h with h | ⟨-, rfl⟩
  · split at h <;> simp_all
  · exact .inr rfl

theorem furtherLine_of_mem {cs : List Char} (hne : cs ≠ [])
    (hcs : ∀ c ∈ cs, c = '1' ∨ c = ')' ∨ c = '\'' ∨ c = '=') : FurtherLine (String.ofList cs) where
  no_break := by
    rw [String.toList_ofList]
    intro hbreak
    simpa using hcs _ hbreak
  not_blank := by
    obtain ⟨c, rest, rfl⟩ := List.exists_cons_of_ne_nil hne
    have hc : isBlank c = false := by obtain rfl | rfl | rfl | rfl := hcs c (by simp) <;> decide
    rw [Bool.eq_false_iff, ne_eq, isBlankText_iff, String.toList_ofList,
      List.dropWhile_cons_of_neg (by simp [hc])]
    simp

/-- **Tokens that are read are completed by the text that closes them.** -/
theorem ReadTo.exists_parseSource {file src : String} {ps qs : List Piece} {w : List Char}
    {v : List Token} {s : ParserState} (hread : ReadTo v s) (hv : v.map Token.kind = ps.map Piece.kind)
    (hqs : qs.map Piece.kind = s.closers.map Token.kind) (hsplit : Split src.toList (ps ++ qs) w) :
    ∃ x, parseSource file src = .ok x := by
  let stop : Token := { kind := .eof }
  have hclosers : (qs.map Piece.token).map Token.kind = s.closers.map Token.kind := by
    simpa [Function.comp_def, Piece.token] using hqs
  have hstop : stop.kind = .eof := rfl
  obtain ⟨x, hok⟩ := hread.accepted hclosers hstop
  have hkinds : (v ++ qs.map Piece.token ++ [stop]).map Token.kind =
      (ps ++ qs).map Piece.kind ++ [.eof] := by
    simp [hv, stop, Function.comp_def, Piece.token]
  obtain ⟨-, hbare⟩ := parseTokens_ok_of_kinds (hsplit.terminated hkinds)
    ((map_kind_bareTokens _).trans hkinds.symm) hok
  exact exists_parseSource_iff.mpr ⟨_, w, hsplit, hbare⟩

/-- Where a source parses that has to start with lexemes of some kinds, tokens of these
kinds start tokens that are accepted. -/
theorem exists_parseTokens_append {file src : String} {v : List Token} {x : Expr}
    (h : parseSource file src = .ok x)
    (hfront : ∀ ps w, Split src.toList ps w → v.map Token.kind <+: ps.map Piece.kind) :
    ∃ rest y, Terminated (v ++ rest) ∧ parseTokens (v ++ rest) = .ok y := by
  obtain ⟨ps, w, hsplit, y, hok⟩ := exists_parseSource_iff.mp ⟨x, h⟩
  obtain ⟨later, hlater⟩ := hfront ps w hsplit
  have hbare := map_kind_bareTokens ps
  let rest : List Token := (bareTokens ps).drop v.length
  have hkinds : (v ++ rest).map Token.kind = (bareTokens ps).map Token.kind := by
    have hlen : v.length = (v.map Token.kind).length := by rw [List.length_map]
    rw [List.map_append, List.map_drop, hbare, ← hlater, hlen, List.append_assoc, List.drop_left]
  obtain ⟨hterm, z, hz⟩ := parseTokens_ok_of_kinds (hsplit.terminated hbare) hkinds hok
  exact ⟨rest, z, hterm, hz⟩

/-! ### Entries that the parser refuses -/

theorem probe_of_parse_error {src : String} {ts : List Token} {e : ParseError}
    (hscan : scan "" src = .ok ts) (h : parseTokens ts = .error e) :
    probe src = ⟨" ", e.token.kind = .eof⟩ := by
  simp only [probe, parseSource, hscan, h, Except.mapError]
  rfl

/-- After a blank the lexemes of an entry are what they were. -/
theorem Split.leads_joined {src : String} {ps : List Piece} {w : List Char}
    (h : Split src.toList ps w) (next : String) :
    Leads (src ++ " " ++ next).toList ps (w ++ ' ' :: next.toList) := by
  have hleads : Leads (src.toList ++ ' ' :: next.toList) ps (w ++ ' ' :: next.toList) :=
    h.leads.1.append fun _ => separated_blank _
  simpa using hleads

/-- What is read is completed behind a blank. -/
theorem Split.exists_closed {file src : String} {ps : List Piece} {w : List Char} {v : List Token}
    {s : ParserState} (h : Split src.toList ps w) (hv : v.map Token.kind = ps.map Piece.kind)
    (hread : ReadTo v s) : ∃ x, parseSource file (src ++ " " ++ String.ofList (closingText s)) = .ok x := by
  have hblanks : ∀ c ∈ w ++ [' '], isSpacing c := by
    intro c hc
    rcases List.mem_append.mp hc with hc | hc
    · exact h.leads.2 c hc
    · exact isSpacing_blank c hc
  obtain ⟨qs, w', hsplit, hqs⟩ := (split_closingText s).append_blanks hblanks
  have hkinds : qs.map Piece.kind = s.closers.map Token.kind := by
    have hqs' := congrArg (List.map Token.kind) hqs
    simpa [Function.comp_def, Piece.token, map_kind_closingPieces] using hqs'
  refine hread.exists_parseSource hv hkinds ((h.leads_joined _).split (w := w') ?_)
  simpa using hsplit

/-- **Another line is asked for exactly if one repairs the entry.** -/
theorem entry_continues_iff_repairable {file src : String} {ts : List Token} {f : Failure}
    (hscan : scan file src = .ok ts) (hfail : parseSource file src = .error f) :
    (probe src).separator = " " ∧
    ((probe src).more = true ↔
      ∃ next, FurtherLine next ∧ ∃ x, parseSource file (src ++ " " ++ next) = .ok x) ∧
    ((probe src).more = false → ∀ later x, parseSource file (src ++ " " ++ later) ≠ .ok x) := by
  obtain ⟨ps, w, hsplit, rfl⟩ := scan_eq_ok_iff.mp hscan
  have hscan' : scan "" src = .ok (tokensOf "" [] ps w) := scan_eq_ok_iff.mpr ⟨ps, w, hsplit, rfl⟩
  obtain ⟨body, stop, heq, hkinds, hbody, hstop⟩ := hsplit.exists_body (map_kind_tokensOf "" w ps [])
  rw [heq] at hscan'
  cases hparse : parseTokens (body ++ [stop]) with
  | ok x =>
    have hok := exists_parseSource_iff.mp ⟨x, parseSource_eq_ok_iff.mpr ⟨_, hscan', hparse⟩⟩
    obtain ⟨y, hy⟩ : ∃ y, parseSource file src = .ok y := exists_parseSource_iff.mpr hok
    rw [hfail] at hy
    exact absurd hy nofun
  | error e =>
    rw [probe_of_parse_error hscan' hparse]
    obtain ⟨hend, s, hread⟩ | ⟨hbad, hrefused⟩ := parseTokens_eq_error hbody hstop hparse
    · have hne : closingText s ≠ [] := fun hnil => by
        have hnone : ([] : List Token).map Token.kind = s.closers.map Token.kind := by
          rw [closers_eq_nil hnil]
        obtain ⟨x, hx⟩ := hread.accepted hnone hstop
        simp [hparse] at hx
      have hline := furtherLine_of_mem hne fun c hc => (mem_closingText hc).imp_right .inl
      simp only [hend, decide_true, true_iff, true_and, Bool.true_eq_false, false_implies, and_true]
      exact ⟨_, hline, hsplit.exists_closed hkinds hread⟩
    · have hnone : ∀ later x, parseSource file (src ++ " " ++ later) ≠ .ok x := by
        intro later x hok
        obtain ⟨rest, y, -, hy⟩ := exists_parseTokens_append (v := body) hok fun ps' w' hsplit' => by
          obtain ⟨qs, rfl, -⟩ := (hsplit.leads_joined later).of_split hsplit'
          rw [hkinds, List.map_append]
          exact List.prefix_append _ _
        exact hrefused rest y hy
      simp only [hbad, decide_false, Bool.false_eq_true, false_iff, true_and]
      exact ⟨fun ⟨next, _, x, hx⟩ => hnone next x hx, fun _ => hnone⟩

/-- The entry `(1 +` lacks an operand and a parenthesis. -/
def openPieces : List Piece :=
  [plainPiece [] .leftParen, onePiece, plainPiece [' '] .plus]

theorem openPieces_split : Split "(1 +".toList openPieces [] := by
  have hplus : Split " +".toList (openPieces.drop 2) [] :=
    .plain .plus (.inl (by decide)) isSpacing_blank (.of_symbol (by decide) (by decide) (by simp) (by simp))
      (.done isSpacing_nil)
  have hone : Split "1 +".toList (openPieces.drop 1) [] :=
    .more (p := onePiece) isSpacing_nil spells_one ((separated_blank _).maximal _) hplus
  exact .plain .leftParen (.inl (by decide)) isSpacing_nil (maximal_leftParen _) hone

theorem openEntry_continues : ∃ ts f, scan "in" "(1 +" = .ok ts ∧
    parseSource "in" "(1 +" = .error f ∧ (probe "(1 +").more = true ∧
    ∃ next, FurtherLine next ∧ ∃ x, parseSource "in" ("(1 +" ++ " " ++ next) = .ok x := by
  have hscan : ∀ file, scan file "(1 +" = .ok (tokensOf file [] openPieces []) := fun file =>
    scan_eq_ok_iff.mpr ⟨_, _, openPieces_split, rfl⟩
  have hparse : ∃ e, parseTokens (tokensOf "in" [] openPieces []) = .error e := ⟨_, rfl⟩
  have hprobe := probe_of_parse_error (hscan "") rfl
  obtain ⟨e, he⟩ := hparse
  have hfail : parseSource "in" "(1 +" = .error (.parse e) := by
    simp [parseSource, hscan, he, Except.mapError]
  have hmore : (probe "(1 +").more = true := by rw [hprobe]; rfl
  obtain ⟨-, hiff, -⟩ := entry_continues_iff_repairable (hscan "in") hfail
  exact ⟨_, _, hscan "in", hfail, hmore, hiff.mp hmore⟩

/-! ### Entries that break off -/

theorem Unfinished.kind_eq {l : List Char} {k : TokenKind} (h : Unfinished l k) :
    k = .literal ∨ k = .notEqual := by
  cases h <;> simp

theorem probe_of_breaksOff {src : String} {ps : List Piece} {k : TokenKind}
    (h : BreaksOff src.toList ps k) : probe src = ⟨String.ofList (openSeparator k), true⟩ := by
  obtain ⟨pos, hscan⟩ := h.scan_eq ""
  obtain ⟨_, _, _, _, hl⟩ := h
  simp only [probe, parseSource, hscan, continuation]
  obtain rfl | rfl := hl.kind_eq <;> rfl

/-- The tokens in front of the place where a text breaks off, and the one that is not
finished. -/
def tokensToBreak (ps : List Piece) (k : TokenKind) : List Token := ps.map Piece.token ++ [{ kind := k }]

/-- Where some text repairs an entry, the tokens up to the break start an expression. -/
theorem BreaksOff.viable {file src later : String} {ps : List Piece} {k : TokenKind} {x : Expr}
    (h : BreaksOff src.toList ps k) (hok : parseSource file (src ++ later) = .ok x) :
    Viable (tokensToBreak ps k) := by
  obtain ⟨rest, y, hterm, hy⟩ := exists_parseTokens_append (v := tokensToBreak ps k) hok
    fun ps' w hsplit => by
      rw [String.toList_append] at hsplit
      obtain ⟨q, qs, rfl, rfl⟩ := h.kind_of_split hsplit
      exact ⟨qs.map Piece.kind, by simp [tokensToBreak, Function.comp_def, Piece.token]⟩
  exact ⟨_, y, List.prefix_append _ rest, hterm, hy⟩

/-- Where the tokens up to the break start an expression, a line repairs the entry: it
finishes the lexeme and closes what is open. -/
theorem BreaksOff.exists_repair {file src : String} {ps : List Piece} {k : TokenKind}
    (h : BreaksOff src.toList ps k) (hviable : Viable (tokensToBreak ps k)) : ∃ next, FurtherLine next ∧
      ∃ x, parseSource file (src ++ String.ofList (openSeparator k) ++ next) = .ok x := by
  have hkind : k = .literal ∨ k = .notEqual := by
    obtain ⟨_, _, _, _, hl⟩ := h
    exact hl.kind_eq
  have hfront : ∀ t ∈ ps.map Piece.token, t.kind ≠ .eof := by
    obtain ⟨q, -, hsplit⟩ := h.split (.done isSpacing_nil)
    intro t ht
    obtain ⟨p, hp, rfl⟩ := List.mem_map.mp ht
    exact (hsplit.spells_of_mem p (List.mem_append_left _ hp)).kind_ne_eof
  obtain ⟨s, hread⟩ := hviable.exists_readTo hfront (by obtain rfl | rfl := hkind <;> decide)
    (by obtain rfl | rfl := hkind <;> decide)
  obtain ⟨q, rfl, hsplit⟩ := h.split (split_closingText s)
  have hline : FurtherLine (String.ofList (finisher q.kind :: closingText s)) := by
    refine furtherLine_of_mem (by simp) fun c hc => ?_
    rcases List.mem_cons.mp hc with rfl | hc
    · obtain hk | hk := hkind <;> simp [finisher, hk]
    · exact (mem_closingText hc).imp_right .inl
  have hkinds : (tokensToBreak ps q.kind).map Token.kind = (ps ++ [q]).map Piece.kind := by
    simp [tokensToBreak, Function.comp_def, Piece.token]
  refine ⟨_, hline, hread.exists_parseSource hkinds (map_kind_closingPieces s) (w := []) ?_⟩
  simpa using hsplit

/-- **An entry that breaks off is always continued, and can be repaired exactly if its
tokens start an expression.** -/
theorem broken_off_repairable_iff_viable {file src : String} {e : ScanError}
    (hscan : scan file src = .error e) (he : e.fault = .unexpectedEnd) :
    (probe src).more = true ∧ (∃ ps k, BreaksOff src.toList ps k) ∧
    ∀ ps k, BreaksOff src.toList ps k →
      ((∃ next, FurtherLine next ∧ ∃ x, parseSource file (src ++ (probe src).separator ++ next) = .ok x) ↔
        Viable (tokensToBreak ps k)) ∧
      (¬ Viable (tokensToBreak ps k) →
        ∀ later x, parseSource file (src ++ (probe src).separator ++ later) ≠ .ok x) := by
  obtain ⟨ps₀, k₀, hbreak₀⟩ := exists_breaksOff hscan he
  refine ⟨by rw [probe_of_breaksOff hbreak₀], ⟨ps₀, k₀, hbreak₀⟩, fun ps k hbreak => ?_⟩
  have hviable : ∀ later x, parseSource file (src ++ (probe src).separator ++ later) = .ok x →
      Viable (tokensToBreak ps k) := fun later x hok => hbreak.viable (String.append_assoc .. ▸ hok)
  refine ⟨⟨?_, ?_⟩, fun hnot later x hok => hnot (hviable later x hok)⟩
  · rintro ⟨next, -, x, hok⟩
    exact hviable next x hok
  · intro h
    rw [probe_of_breaksOff hbreak]
    exact hbreak.exists_repair h

theorem halfOperator_breaksOff : BreaksOff "(1 !".toList (openPieces.take 2) .notEqual := by
  have hone : Leads "1 !".toList [onePiece] " !".toList :=
    .more (p := onePiece) isSpacing_nil spells_one ((separated_blank _).maximal _) .done
  exact ⟨[' '], ['!'], .more (p := plainPiece [] .leftParen) isSpacing_nil (.symbol (by decide))
    (maximal_leftParen _) hone, isSpacing_blank, .notEqual⟩

theorem halfOperator_repairable : ∃ e, scan "in" "(1 !" = .error e ∧ e.fault = .unexpectedEnd ∧
    ∃ next, FurtherLine next ∧ ∃ x, parseSource "in" ("(1 !" ++ (probe "(1 !").separator ++ next) = .ok x := by
  obtain ⟨pos, hscan⟩ := halfOperator_breaksOff.scan_eq "in"
  have hviable : Viable (tokensToBreak (openPieces.take 2) .notEqual) :=
    ⟨_, _, List.prefix_append _ [{ kind := .literal }, { kind := .rightParen }, { kind := .eof }],
      ⟨_, _, (List.append_assoc _ [_, _] [_]).symm, by decide, rfl⟩, rfl⟩
  obtain ⟨-, -, hbroken⟩ := broken_off_repairable_iff_viable hscan rfl
  exact ⟨_, hscan, rfl, (hbroken _ _ halfOperator_breaksOff).1.mpr hviable⟩

theorem secondOperand_breaksOff : BreaksOff "1 'a".toList [onePiece] .literal :=
  ⟨[' '], ['\'', 'a'], .more (p := onePiece) isSpacing_nil spells_one ((separated_blank _).maximal _) .done,
    isSpacing_blank, .text (Quoted.nil.plain (by decide) (by decide))⟩

/-- After the number in `1 'a` no text can come, and yet another line is asked for. -/
theorem secondOperand_not_repairable : ∃ e, scan "" "1 'a" = .error e ∧ e.fault = .unexpectedEnd ∧
    probe "1 'a" = ⟨"\n", true⟩ ∧
    ∀ next x, parseSource "" ("1 'a" ++ (probe "1 'a").separator ++ next) ≠ .ok x := by
  obtain ⟨pos, hscan⟩ := secondOperand_breaksOff.scan_eq ""
  refine ⟨_, hscan, rfl, probe_of_breaksOff secondOperand_breaksOff, fun next x hok => ?_⟩
  rw [String.append_assoc] at hok
  obtain ⟨_, y, ⟨rest, rfl⟩, -, hy⟩ := secondOperand_breaksOff.viable hok
  have hbody : ∀ t ∈ tokensToBreak [onePiece] .literal, t.kind ≠ .eof := by decide
  have hstop : ({ kind := .eof } : Token).kind = .eof := rfl
  obtain ⟨hend, -⟩ | ⟨-, hrefused⟩ := parseTokens_eq_error hbody hstop rfl
  · exact absurd hend (by decide)
  · exact hrefused rest y hy

end Pseudocode
