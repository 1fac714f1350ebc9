/-
# What can still become an expression

Tokens in front of the end are of three sorts. All of them are read, and then some
operand and closing parentheses complete them; or they are a whole expression with
newlines behind it; or there is a bad token among them, and nothing that follows can
repair it. Where parsing fails, the token in error tells which: the first sort fails at
the end token, the last one at a token before it (`parseTokens_eq_error`).

Which tokens are accepted depends on their kinds alone (`parseTokens_ok_of_kinds`), so
what completes them may be any literal and stand in any place.

Key definition: `ReadTo`.
Key theorems: `Derives.of_kinds`, `parseTokens_ok_of_kinds`, `ReadTo.accepted`,
`parseTokens_eq_error`, `Viable.exists_readTo`.
-/
import Pseudocode.Proofs.Grammar
import Pseudocode.Proofs.ViablePrefix

namespace Pseudocode

open ParserState TokenStream

/-! ### Kinds decide -/

/-- Tokens of the same kinds derive some tree as well. -/
theorem Derives.of_kinds {n : Nonterminal} {u : List Token} {x : Expr} (d : Derives n u x) :
    ∀ {u' : List Token}, u'.map Token.kind = u.map Token.kind → ∃ x', Derives n u' x' := by
  induction d with
  | tighter hn _ ih =>
    intro u' h
    obtain ⟨x', d'⟩ := ih h
    exact ⟨x', .tighter hn d'⟩
  | @operation n u v x y t _ ht _ ihx ihy =>
    intro u' h
    rw [List.map_append, List.map_cons, List.map_eq_append_iff] at h
    obtain ⟨u₁, w, rfl, hu, hw⟩ := h
    obtain ⟨t', v₁, rfl, ht', hv⟩ := List.map_eq_cons_iff.mp hw
    obtain ⟨x', dx⟩ := ihx hu
    obtain ⟨y', dy⟩ := ihy hv
    exact ⟨_, .operation dx (ht' ▸ ht) dy⟩
  | @prefixed u x t ht _ ih =>
    intro u' h
    obtain ⟨t', v, rfl, ht', hv⟩ := List.map_eq_cons_iff.mp h
    obtain ⟨x', dx⟩ := ih hv
    exact ⟨_, .prefixed (ht' ▸ ht) dx⟩
  | @literal t ht =>
    intro u' h
    obtain ⟨t', v, rfl, ht', hv⟩ := List.map_eq_cons_iff.mp h
    obtain rfl := List.map_eq_nil_iff.mp hv
    exact ⟨_, .literal (ht'.trans ht)⟩
  | @parens l r u x hl _ hr ih =>
    intro u' h
    rw [List.cons_append, List.map_cons, List.map_append] at h
    obtain ⟨l', w, rfl, hl', hw⟩ := List.map_eq_cons_iff.mp h
    obtain ⟨v, w, rfl, hv, hw⟩ := List.map_eq_append_iff.mp hw
    obtain ⟨r', w, rfl, hr', hw⟩ := List.map_eq_cons_iff.mp hw
    obtain rfl := List.map_eq_nil_iff.mp hw
    obtain ⟨x', dx⟩ := ih hv
    exact ⟨x', .parens (hl'.trans hl) dx (hr'.trans hr)⟩

theorem forall_kind_of_map_eq {ts ts' : List Token} (h : ts'.map Token.kind = ts.map Token.kind)
    {P : TokenKind → Prop} (hP : ∀ t ∈ ts, P t.kind) : ∀ t ∈ ts', P t.kind := by
  intro t ht
  have hmem : t.kind ∈ ts.map Token.kind := h ▸ List.mem_map_of_mem ht
  obtain ⟨t₀, ht₀, hk⟩ := List.mem_map.mp hmem
  exact hk ▸ hP t₀ ht₀

/-- **Which tokens are accepted depends on their kinds alone.** -/
theorem parseTokens_ok_of_kinds {ts ts' : List Token} (hts : Terminated ts)
    (h : ts'.map Token.kind = ts.map Token.kind) {x : Expr} (hok : parseTokens ts = .ok x) :
    Terminated ts' ∧ ∃ x', parseTokens ts' = .ok x' := by
  obtain ⟨m, u, n, stop, rfl, hm, d, hn, hstop⟩ := (parseTokens_eq_ok_iff hts).mp hok
  rw [List.map_append] at h
  obtain ⟨w, v, rfl, hw, hv⟩ := List.map_eq_append_iff.mp h
  rw [List.map_append] at hw
  obtain ⟨w, n', rfl, hw, hn'⟩ := List.map_eq_append_iff.mp hw
  rw [List.map_append] at hw
  obtain ⟨m', u', rfl, hm', hu'⟩ := List.map_eq_append_iff.mp hw
  obtain ⟨stop', v, rfl, hstop', hv⟩ := List.map_eq_cons_iff.mp hv
  obtain rfl := List.map_eq_nil_iff.mp hv
  have hm₁ := forall_kind_of_map_eq hm' (P := (· = .newline)) hm
  have hn₁ := forall_kind_of_map_eq hn' (P := (· = .newline)) hn
  obtain ⟨x', d'⟩ := d.of_kinds hu'
  have hterm : Terminated (m' ++ u' ++ n' ++ [stop']) := by
    refine ⟨m' ++ u' ++ n', stop', rfl, ?_, hstop'.trans hstop⟩
    simp only [List.mem_append]
    rintro t ((ht | ht) | ht)
    · simp [hm₁ t ht]
    · exact (d'.kind_ne t ht).2
    · simp [hn₁ t ht]
  exact ⟨hterm, x', (parseTokens_eq_ok_iff hterm).mpr
    ⟨m', u', n', stop', rfl, hm₁, d', hn₁, hstop'.trans hstop⟩⟩

/-! ### What the parser has read -/

/-- All the tokens are read, newlines in front apart, and leave the parser in the state
`s`. -/
def ReadTo (v : List Token) (s : ParserState) : Prop :=
  ∃ m read, v = m ++ read ∧ (∀ t ∈ m, t.kind = .newline) ∧ start.after read = some s

theorem ne_eof_of_after {read : List Token} {s : ParserState} (h : start.after read = some s) :
    ∀ t ∈ read, t.kind ≠ .eof := by
  refine after_invariant (P := fun v _ => ∀ t ∈ v, t.kind ≠ .eof) ?_ read [] (by simp) h
  intro v s₁ t s₂ hv hs
  simp only [List.mem_append, List.mem_singleton]
  rintro u (hu | rfl)
  · exact hv u hu
  · intro hk
    simp [step_eq_none (.inr hk)] at hs

/-- **What is read can be completed**, by any tokens of the kinds that close it. -/
theorem ReadTo.accepted {v us : List Token} {s : ParserState} {stop : Token} (h : ReadTo v s)
    (hus : us.map Token.kind = s.closers.map Token.kind) (hstop : stop.kind = .eof) :
    ∃ x, parseTokens (v ++ us ++ [stop]) = .ok x := by
  obtain ⟨m, read, rfl, hm, hread⟩ := h
  obtain ⟨hterm, x, hok⟩ := accepted_closers hm (ne_eof_of_after hread) hread
  exact (parseTokens_ok_of_kinds hterm (by simp [hus, hstop]) hok).2

/-- **An error stands at the end exactly if the tokens can be completed.** It stands at the
end token where all tokens before the end are read. It stands before the end where there is
a bad token, and then no tokens that start like this are accepted. -/
theorem parseTokens_eq_error {body : List Token} {stop : Token} (hbody : ∀ t ∈ body, t.kind ≠ .eof)
    (hstop : stop.kind = .eof) {e : ParseError} (h : parseTokens (body ++ [stop]) = .error e) :
    (e.token.kind = .eof ∧ ∃ s, ReadTo body s) ∨
      (e.token.kind ≠ .eof ∧ ∀ rest x, parseTokens (body ++ rest) ≠ .ok x) := by
  obtain ⟨m, read, rest, q, rfl, hm, hfront, hq, hrest⟩ := exists_read body
  have heof := ne_eof_of_after hq
  rw [parseTokens, ofTokens_eof hbody hstop, parse_eq_run hm hfront,
    run_eq_halt stop read rest hq hrest] at h
  cases hhalt : q.halt (rest.headD stop) with
  | error e' =>
    simp only [hhalt, Except.error.injEq] at h
    subst h
    have htoken : e'.token = rest.headD stop := by
      obtain ⟨rfl, -⟩ | ⟨rfl, -⟩ := halt_eq_error hhalt <;> rfl
    cases rest with
    | nil => exact .inl ⟨htoken ▸ hstop, q, m, read, by simp, hm, hq⟩
    | cons t rest =>
      have hnewline : read = [] → t.kind ≠ .newline := by
        rintro rfl
        exact hfront t rfl
      refine .inr ⟨htoken ▸ hbody t (by simp), fun later x => ?_⟩
      have hno : parseTokens (m ++ read ++ t :: (rest ++ later)) ≠ .ok x :=
        not_ok_of_halt_error hm heof hnewline hq (hrest t rfl) hhalt x
      simpa using hno
  | ok x =>
    obtain ⟨n, after, rfl, hn, hafter⟩ := exists_newlines rest
    simp only [hhalt, dropWhile_newline_append hn hafter] at h
    cases after with
    | nil => simp at h
    | cons t after =>
      simp only [Except.error.injEq] at h
      have hte : t.kind ≠ .eof := hbody t (by simp)
      have hstep : n = [] → q.step t = none := by
        rintro rfl
        exact hrest t rfl
      refine .inr ⟨h ▸ hte, fun later y => ?_⟩
      have hno : parseTokens (m ++ (read ++ n) ++ t :: (after ++ later)) ≠ .ok y :=
        not_ok_after_expression hm heof hn (hafter t rfl) hte hq hstep ((halt_eq_ok hhalt).2.2 t) y
      simpa using hno

/-- What the grammar derives is read. -/
theorem Derives.exists_after {n : Nonterminal} {u : List Token} {x : Expr} (d : Derives n u x) :
    ∃ s, start.after u = some s := by
  have hrun : start.run { kind := .eof } u = (.ok x, []) :=
    run_start_eq_ok_iff.mpr ⟨u, by simp, d.loosen (Nat.zero_le _), rfl⟩
  obtain ⟨read, rest, s, rfl, hs, hrest⟩ := exists_halt start u
  rw [run_eq_halt _ read rest hs hrest, Prod.mk.injEq] at hrun
  obtain ⟨-, rfl⟩ := hrun
  exact ⟨s, by simpa using hs⟩

/-- Tokens that are viable and do not end in a newline are read. -/
theorem Viable.exists_readTo {v : List Token} {t : Token} (h : Viable (v ++ [t]))
    (hv : ∀ u ∈ v, u.kind ≠ .eof) (ht : t.kind ≠ .eof) (hn : t.kind ≠ .newline) :
    ∃ s, ReadTo (v ++ [t]) s := by
  have hbody : ∀ u ∈ v ++ [t], u.kind ≠ .eof := by
    simp only [List.mem_append, List.mem_singleton]
    rintro u (hu | rfl)
    · exact hv u hu
    · exact ht
  -- parse the tokens as they are: a failure before the end cannot be, as they are viable
  cases hparse : parseTokens (v ++ [t] ++ [{ kind := .eof }]) with
  | error e =>
    obtain ⟨-, hread⟩ | ⟨-, hrefused⟩ := parseTokens_eq_error hbody rfl hparse
    · exact hread
    · obtain ⟨_, x, ⟨rest, rfl⟩, -, hok⟩ := h
      exact absurd hok (hrefused rest x)
  | ok x =>
    obtain ⟨m, u, n, stop, heq, hm, d, hnew, -⟩ :=
      (parseTokens_eq_ok_iff ⟨_, _, rfl, hbody, rfl⟩).mp hparse
    obtain ⟨hsplit, -⟩ := List.append_inj' heq rfl
    have hnil : n = [] := by
      rcases List.eq_nil_or_concat n with hnil | ⟨n, t', rfl⟩
      · exact hnil
      · rw [List.concat_eq_append, ← List.append_assoc] at hsplit
        obtain rfl : t = t' := by simpa using (List.append_inj' hsplit rfl).2
        exact absurd (hnew t (by simp)) hn
    obtain ⟨s, hs⟩ := d.exists_after
    exact ⟨s, m, u, by rw [hsplit, hnil, List.append_nil], hm, hs⟩

end Pseudocode
