/-
# Syntax errors stand at the first bad token

A list of tokens is viable when some whole expression starts with it. Where
parsing fails, the error names the token up to which the tokens are viable and
with which they are not: what is before it can be completed, because every state
of the parser can be (`viable_of_after`), and no list that goes on with it is
accepted, because the parser halts there whatever follows (`not_ok_of_halt_error`,
`not_ok_after_expression`).

A missing parenthesis is reported exactly where an operand has just ended and
more parentheses have been opened than closed (`parenDue_iff`).

Key definitions: `Viable`, `ParenDue`.
Key theorem: `parse_error_at_first_bad_token`.
-/
import Pseudocode.Proofs.ParserState

namespace Pseudocode

open ParserState TokenStream

/-- Some token list that is accepted, and ends where its end token stands, starts
with `v`. -/
def Viable (v : List Token) : Prop :=
  ∃ us x, v <+: us ∧ Terminated us ∧ parseTokens us = .ok x

/-- An operand has just ended, and a parenthesis is open. -/
def ParenDue (v : List Token) : Prop :=
  (∃ t ∈ v.getLast?, t.kind = .literal ∨ t.kind = .rightParen) ∧
    v.countP (·.kind = .rightParen) < v.countP (·.kind = .leftParen)

/-! ### What the parser has read -/

/-- What the parser reads does not start with a newline, so neither do tokens that
it has read the start of. -/
theorem head_ne_newline_of_after {s : ParserState} {read rest : List Token}
    (h : start.after read = some s) (hrest : read = [] → ∀ t ∈ rest.head?, t.kind ≠ .newline) :
    ∀ t ∈ (read ++ rest).head?, t.kind ≠ .newline := by
  cases read with
  | nil => exact hrest rfl
  | cons t read =>
    rintro _ ⟨⟩ ht
    simp [after, step_eq_none (.inl ht)] at h

/-- Tokens divide into the newlines in front, what the parser reads, and the
rest. -/
theorem exists_read (body : List Token) : ∃ m read rest s, body = m ++ (read ++ rest) ∧
    (∀ t ∈ m, t.kind = .newline) ∧ (∀ t ∈ (read ++ rest).head?, t.kind ≠ .newline) ∧
      start.after read = some s ∧ ∀ t ∈ rest.head?, s.step t = none := by
  obtain ⟨m, ts, rfl, hm, hts⟩ := exists_newlines body
  obtain ⟨read, rest, s, rfl, hs, hrest⟩ := exists_halt start ts
  exact ⟨m, read, rest, s, rfl, hm, hts, hs, hrest⟩

theorem countP_newlines {m : List Token} (hm : ∀ t ∈ m, t.kind = .newline) {k : TokenKind}
    (hk : k ≠ .newline) : m.countP (·.kind = k) = 0 := by
  rw [List.countP_eq_zero]
  intro t ht
  simp [hm t ht, hk.symm]

/-- The state tells whether a closing parenthesis is due. -/
theorem parenDue_iff {m read : List Token} {s : ParserState} (hm : ∀ t ∈ m, t.kind = .newline)
    (h : start.after read = some s) : ParenDue (m ++ read) ↔ s.afterOperand = true ∧ 0 < s.depth := by
  have hdepth : s.depth + _ = 0 + _ := after_depth h
  have hlast : (∃ t ∈ (m ++ read).getLast?, t.kind = .literal ∨ t.kind = .rightParen) ↔
      ∃ t ∈ read.getLast?, t.kind = .literal ∨ t.kind = .rightParen := by
    rcases List.eq_nil_or_concat read with rfl | ⟨read, u, rfl⟩
    · -- nothing is read, so the last token is a newline, if there is one
      simp only [List.append_nil, List.getLast?_nil, Option.not_mem_none, false_and, exists_false, iff_false]
      rintro ⟨t, ht, hk⟩
      have := hm t (List.mem_of_getLast? ht)
      simp [this] at hk
    · simp [← List.append_assoc]
  rw [ParenDue, hlast, after_afterOperand h]
  refine and_congr_right fun _ => ?_
  simp only [List.countP_append, countP_newlines hm (by decide : TokenKind.rightParen ≠ .newline),
    countP_newlines hm (by decide : TokenKind.leftParen ≠ .newline)]
  omega

/-! ### What is read can be completed -/

/-- What the parser reads is accepted with the tokens that close it. -/
theorem accepted_closers {m read : List Token} {s : ParserState} (hm : ∀ t ∈ m, t.kind = .newline)
    (heof : ∀ t ∈ read, t.kind ≠ .eof) (h : start.after read = some s) :
    Terminated (m ++ (read ++ s.closers) ++ [{ kind := .eof }]) ∧
      ∃ x, parseTokens (m ++ (read ++ s.closers) ++ [{ kind := .eof }]) = .ok x := by
  obtain ⟨x, hx⟩ := run_closers { kind := .eof } s
  have hclosers : ∀ t ∈ s.closers, t.kind ≠ .newline ∧ t.kind ≠ .eof := fun t ht => by
    rcases kind_of_mem_closers ht with hk | hk <;> simp [hk]
  have hhead : ∀ t ∈ (read ++ s.closers ++ []).head?, t.kind ≠ .newline := by
    rw [List.append_nil]
    exact head_ne_newline_of_after h fun _ t ht => (hclosers t (List.mem_of_mem_head? ht)).1
  have hmem : ∀ t ∈ read ++ s.closers, t.kind ≠ .eof := by
    simp only [List.mem_append]
    rintro t (ht | ht)
    · exact heof t ht
    · exact (hclosers t ht).2
  have hrun : start.run { kind := .eof } (read ++ s.closers ++ []) = (.ok x, []) := by
    rw [List.append_nil, run_append _ read _ h, hx]
  obtain ⟨hterm, hok⟩ := parseTokens_eq_ok hm hhead (by simp) hmem rfl hrun
  rw [List.append_nil] at hterm hok
  exact ⟨hterm, x, hok⟩

/-- What the parser reads is viable. -/
theorem viable_of_after {m read : List Token} {s : ParserState} (hm : ∀ t ∈ m, t.kind = .newline)
    (heof : ∀ t ∈ read, t.kind ≠ .eof) (h : start.after read = some s) : Viable (m ++ read) := by
  obtain ⟨hterm, x, hok⟩ := accepted_closers hm heof h
  exact ⟨_, x, ⟨s.closers ++ [{ kind := .eof }], by simp⟩, hterm, hok⟩

/-- A whole expression and newlines are viable. -/
theorem viable_of_expression {m read n : List Token} {s : ParserState} {t : Token} {x : Expr}
    (hm : ∀ t ∈ m, t.kind = .newline) (hread : ∀ t ∈ (read ++ n).head?, t.kind ≠ .newline)
    (hn : ∀ t ∈ n, t.kind = .newline) (heof : ∀ t ∈ read, t.kind ≠ .eof)
    (h : start.after read = some s) (hx : s.halt t = .ok x) : Viable (m ++ (read ++ n)) := by
  have hrun : start.run { kind := .eof } (read ++ n) = (.ok x, n) := by
    rw [run_eq_halt _ read n h fun u hu => step_eq_none (.inl (hn u (List.mem_of_mem_head? hu))) s,
      (halt_eq_ok hx).2.2]
  obtain ⟨hterm, hok⟩ := parseTokens_eq_ok hm hread hn heof rfl hrun
  exact ⟨_, x, ⟨[{ kind := .eof }], rfl⟩, hterm, hok⟩

/-! ### What cannot be read is never accepted -/

/-- No list is accepted that goes on with a token at which the parser halts with an
error. -/
theorem not_ok_of_halt_error {m read rest : List Token} {s : ParserState} {t : Token} {e : ParseError}
    (hm : ∀ t ∈ m, t.kind = .newline) (heof : ∀ t ∈ read, t.kind ≠ .eof)
    (hnewline : read = [] → t.kind ≠ .newline) (h : start.after read = some s) (ht : s.step t = none)
    (he : s.halt t = .error e) (x : Expr) : parseTokens (m ++ read ++ t :: rest) ≠ .ok x := by
  obtain ⟨w, stop, hstream, hw, -⟩ := ofTokens_append (ne_eof_append hm heof) t rest
  have hhead : ∀ u ∈ w.head?, u = t := by
    rintro u hu
    rw [← hw, List.headD_eq_head?_getD, Option.mem_def.mp hu, Option.getD_some]
  have hread := head_ne_newline_of_after h fun hr u hu => hhead u hu ▸ hnewline hr
  have hrun := run_eq_halt stop read w h fun u hu => hhead u hu ▸ ht
  rw [parseTokens, hstream, List.append_assoc, parse_eq_run hm hread, hrun, hw, he]
  simp

/-- No list is accepted in which, after an expression and newlines, anything but
the end follows. -/
theorem not_ok_after_expression {m read n rest : List Token} {s : ParserState} {t : Token} {x : Expr}
    (hm : ∀ t ∈ m, t.kind = .newline) (heof : ∀ t ∈ read, t.kind ≠ .eof)
    (hn : ∀ t ∈ n, t.kind = .newline) (ht : t.kind ≠ .newline) (hte : t.kind ≠ .eof)
    (h : start.after read = some s) (hstep : n = [] → s.step t = none) (hx : s.halt t = .ok x)
    (y : Expr) : parseTokens (m ++ (read ++ n) ++ t :: rest) ≠ .ok y := by
  have hread : read ≠ [] := by
    rintro rfl
    simpa using (after_afterOperand h).mp (halt_eq_ok hx).1
  have hbefore : ∀ t ∈ m ++ (read ++ n), t.kind ≠ .eof := ne_eof_append hm <| by
    simp only [List.mem_append]
    rintro t (ht | ht)
    · exact heof t ht
    · simp [hn t ht]
  obtain ⟨w, stop, hstream, hw, hnil⟩ := ofTokens_append hbefore t rest
  obtain ⟨w', rfl⟩ : ∃ w', w = t :: w' := by
    cases w with
    | nil => exact absurd (hnil rfl) hte
    | cons u w' => exact ⟨w', by rw [← hw]; rfl⟩
  have hhead : ∀ u ∈ (n ++ t :: w').head?, s.step u = none := by
    cases n with
    | nil => rintro _ ⟨⟩; exact hstep rfl
    | cons u n => rintro _ ⟨⟩; exact step_eq_none (.inl (hn u List.mem_cons_self)) s
  have hdrop : (n ++ t :: w').dropWhile (·.kind = .newline) = t :: w' :=
    dropWhile_newline_append hn (by rintro _ ⟨⟩; exact ht)
  have hfront : ∀ u ∈ (read ++ (n ++ t :: w')).head?, u.kind ≠ .newline :=
    head_ne_newline_of_after h fun hr => absurd hr hread
  rw [parseTokens, hstream, List.append_assoc, List.append_assoc, parse_eq_run hm hfront,
    run_eq_halt stop read _ h hhead, (halt_eq_ok hx).2.2]
  simp [hdrop]

/-! ### The error -/

/-- The error `e` is the right one for a list that goes bad at `t`, after the tokens
`before`. -/
structure FirstBadToken (before : List Token) (t : Token) (e : ParseError) : Prop where
  /-- The error carries the token. -/
  token : e.token = t
  /-- The error stands where the token does. -/
  pos : e.pos = t.pos
  /-- The tokens before it can be completed. -/
  viable : Viable before
  /-- With it they cannot, whatever follows. -/
  refused : ∀ us x, before ++ [t] <+: us → parseTokens us ≠ .ok x
  /-- A parenthesis is said to be missing exactly if one is due. -/
  fault : (e.fault = .expectedRightParen ∧ ParenDue before) ∨
    (e.fault = .unexpectedToken ∧ ¬ ParenDue before)

/-- A list that starts with `v` and `t` goes on after them. -/
theorem not_ok_of_isPrefix {v : List Token} {t : Token}
    (h : ∀ (rest : List Token) (x : Expr), parseTokens (v ++ t :: rest) ≠ .ok x) (us : List Token) (x : Expr)
    (hus : v ++ [t] <+: us) : parseTokens us ≠ .ok x := by
  obtain ⟨rest, rfl⟩ := hus
  simpa using h rest x

/-- The error where an expression breaks off. -/
theorem firstBadToken_of_halt {m read : List Token} {s : ParserState} {t : Token} {e : ParseError}
    (hm : ∀ t ∈ m, t.kind = .newline) (heof : ∀ t ∈ read, t.kind ≠ .eof)
    (hnewline : read = [] → t.kind ≠ .newline) (h : start.after read = some s) (ht : s.step t = none)
    (he : s.halt t = .error e) : FirstBadToken (m ++ read) t e := by
  have hviable := viable_of_after hm heof h
  have hrefused : ∀ us x, m ++ read ++ [t] <+: us → parseTokens us ≠ .ok x :=
    not_ok_of_isPrefix fun _ x => not_ok_of_halt_error hm heof hnewline h ht he x
  have hdue := parenDue_iff hm h
  obtain ⟨rfl, hop⟩ | ⟨rfl, hop, hdepth⟩ := halt_eq_error he
  · exact ⟨rfl, rfl, hviable, hrefused, .inr ⟨rfl, by simp [hdue, hop]⟩⟩
  · exact ⟨rfl, rfl, hviable, hrefused, .inl ⟨rfl, hdue.mpr ⟨hop, hdepth⟩⟩⟩

/-- The error at a token that is left after a whole expression. -/
theorem firstBadToken_after_expression {m read n : List Token} {s : ParserState} {t : Token} {x : Expr}
    (hm : ∀ t ∈ m, t.kind = .newline) (heof : ∀ t ∈ read, t.kind ≠ .eof)
    (hn : ∀ t ∈ n, t.kind = .newline) (ht : t.kind ≠ .newline) (hte : t.kind ≠ .eof)
    (h : start.after read = some s) (hstep : n = [] → s.step t = none) (hx : s.halt t = .ok x) :
    FirstBadToken (m ++ (read ++ n)) t (.ofToken .unexpectedToken t) := by
  obtain ⟨hop, hclosed, -⟩ := halt_eq_ok hx
  have hfront : ∀ u ∈ (read ++ n).head?, u.kind ≠ .newline := by
    refine head_ne_newline_of_after h ?_
    rintro rfl
    simpa using (after_afterOperand h).mp hop
  refine ⟨rfl, rfl, viable_of_expression hm hfront hn heof h hx, not_ok_of_isPrefix fun _ y =>
    not_ok_after_expression hm heof hn ht hte h hstep hx y, .inr ⟨rfl, ?_⟩⟩
  -- as many parentheses are closed as are opened, so none is due
  rintro ⟨-, hcount⟩
  have hdepth : s.depth + _ = 0 + _ := after_depth h
  simp only [List.countP_append, countP_newlines hm (by decide : TokenKind.rightParen ≠ .newline),
    countP_newlines hm (by decide : TokenKind.leftParen ≠ .newline),
    countP_newlines hn (by decide : TokenKind.rightParen ≠ .newline),
    countP_newlines hn (by decide : TokenKind.leftParen ≠ .newline)] at hcount
  omega

/-- **Syntax errors are reported at the first bad token.** Where parsing fails, the
error is at a token of the list, on which the stream is left: the tokens before it
can be completed to an accepted list, with it they cannot, and the fault is a
missing parenthesis exactly if one is due. -/
theorem parse_error_at_first_bad_token {ts : List Token} (hts : Terminated ts) {e : ParseError}
    {s : TokenStream} (h : (ofTokens ts).parse = (.error e, s)) :
    ∃ before t after, ts = before ++ t :: after ∧ s.remaining = t :: after ∧
      FirstBadToken before t e := by
  obtain ⟨body, stop, rfl, hbody, hstop⟩ := hts
  obtain ⟨m, read, rest, q, rfl, hm, hfront, hq, hrest⟩ := exists_read body
  have heof : ∀ t ∈ read, t.kind ≠ .eof := fun t ht => hbody t (by simp [ht])
  rw [ofTokens_eof hbody hstop, parse_eq_run hm hfront, run_eq_halt stop read rest hq hrest] at h
  cases hhalt : q.halt (rest.headD stop) with
  | error e' =>
    simp only [hhalt, Prod.mk.injEq, Except.error.injEq] at h
    obtain ⟨rfl, rfl⟩ := h
    cases rest with
    | nil =>
      have hnewline : stop.kind ≠ .newline := by simp [hstop]
      exact ⟨m ++ read, stop, [], by simp, rfl, firstBadToken_of_halt hm heof (fun _ => hnewline) hq
        (step_eq_none (.inr hstop) q) hhalt⟩
    | cons t rest =>
      have hnewline : read = [] → t.kind ≠ .newline := by
        rintro rfl
        exact hfront t rfl
      exact ⟨m ++ read, t, rest ++ [stop], by simp, rfl,
        firstBadToken_of_halt hm heof hnewline hq (hrest t rfl) hhalt⟩
  | ok x =>
    obtain ⟨n, after, rfl, hn, hafter⟩ := exists_newlines rest
    simp only [hhalt, dropWhile_newline_append hn hafter] at h
    cases after with
    | nil => simp at h
    | cons t after =>
      simp only [Prod.mk.injEq, Except.error.injEq] at h
      obtain ⟨rfl, rfl⟩ := h
      have hstep : n = [] → q.step t = none := by
        rintro rfl
        exact hrest t rfl
      exact ⟨m ++ (read ++ n), t, after ++ [stop], by simp, by simp [remaining],
        firstBadToken_after_expression hm heof hn (hafter t rfl) (hbody t (by simp)) hq hstep
          ((halt_eq_ok hhalt).2.2 t)⟩

/-- The tokens of `(1 2` on the second line of a source. -/
def unclosedTokens : List Token :=
  [{ kind := .newline, pos := ⟨"", 1, 1⟩ }, { kind := .leftParen, pos := ⟨"", 2, 1⟩ },
    { kind := .literal, pos := ⟨"", 2, 2⟩, value := .int 1 },
    { kind := .literal, pos := ⟨"", 2, 4⟩, value := .int 2 }, { kind := .eof, pos := ⟨"", 2, 5⟩ }]

theorem first_bad_token_of_unclosedTokens : Terminated unclosedTokens ∧
    ∃ e s, (ofTokens unclosedTokens).parse = (.error e, s) ∧ e.fault = .expectedRightParen ∧
      ∃ before t after, unclosedTokens = before ++ t :: after ∧ s.remaining = t :: after ∧
        FirstBadToken before t e := by
  have hts : Terminated unclosedTokens := ⟨unclosedTokens.dropLast, _, rfl, by decide, rfl⟩
  exact ⟨hts, _, _, rfl, rfl, parse_error_at_first_bad_token hts rfl⟩

end Pseudocode
