/-
# The scanner always moves on

A scanner can be stepped on after an error as after a token. One step at a place of a
source either finds blanks only and gives the end token, or it takes some blanks and a
lexeme that is not empty, whether the lexeme is a token or a fault (`Scanner.next_cases`).
So the scanner always stands behind some part of the source, at the place where that part
ends (`Scanner.exists_before`), and each step before the end leaves less of it
(`Scanner.length_after_le`). A source of `n` characters is used up after at most `n` steps.
From then on there is the end token, always the same, and a whole scan needs no more than
`n + 1` steps (`scanner_makes_progress`).

Key definitions: `Scanner.after`, `Scanner.call`, `IsEnd`.
Key theorems: `Scanner.next_cases`, `Scanner.exists_before`, `Scanner.length_after_le`,
`Scanner.call_of_isEnd`, `Scanner.tokens_eq_steps`, `scanner_makes_progress`.
-/
import Pseudocode.Proofs.MovedPlaces
import Pseudocode.Proofs.RoundTrip

namespace Pseudocode

/-- The result of a step is the end token. -/
def IsEnd (r : Except ScanError Token) : Prop := ∃ t, r = .ok t ∧ t.kind = .eof

/-- The end token of a source: it stands behind the last character. -/
def stopOf (file : String) (src : List Char) : Token := { kind := .eof, pos := .after file src }

namespace Scanner

/-- The scanner after a number of steps, whatever they give. -/
def after (s : Scanner) : Nat → Scanner
  | 0 => s
  | k + 1 => (s.after k).next.2

/-- What the step after `k` steps gives. -/
def call (s : Scanner) (k : Nat) : Except ScanError Token := (s.after k).next.1

theorem after_next (s : Scanner) : ∀ k, s.next.2.after k = s.after (k + 1)
  | 0 => rfl
  | k + 1 => by rw [after, after_next s k]; rfl

theorem steps_eq_map_call (n : Nat) : ∀ s : Scanner, s.steps n = (List.range n).map s.call := by
  induction n with
  | zero => exact fun _ => rfl
  | succ n ih =>
    intro s
    have hcall : ∀ k, s.next.2.call k = s.call (k + 1) := fun k => by rw [call, after_next, call]
    rw [steps, ih, List.range_succ_eq_map, List.map_cons, List.map_map]
    exact congrArg _ (List.map_congr_left fun k _ => hcall k)

/-! ### One step -/

theorem next_blank (p : Pos) {cs : List Char} (h : ∀ c ∈ cs, isSpacing c) :
    (Scanner.mk p cs).next = (.ok { kind := .eof, pos := p.advanceBy cs }, ⟨p.advanceBy cs, []⟩) := by
  have hskip : (Scanner.mk p cs).skipSpacing = ⟨p.advanceBy cs, []⟩ := by
    simp [skipSpacing, List.takeWhile_eq_self_iff.mpr h, List.dropWhile_eq_nil_iff.mpr h]
  rw [next, hskip]

/-- A lexeme that gives a token gives no end token, and the token stands where the lexeme
starts. -/
theorem report_lexemeAt {start stop : Pos} {c : Char} {cs : List Char} {t : Token}
    (h : report start stop (lexemeAt c cs).meaning = .ok t) : t.kind ≠ .eof ∧ t.pos = start := by
  rcases hlex : lexemeAt c cs with ⟨⟨k, v, n⟩ | _ | _, l, rest⟩
  · rw [hlex] at h
    cases h
    exact ⟨(lexemeAt_eq_token_iff.mp hlex).2.1.kind_ne_eof, rfl⟩
  · simp [hlex, report] at h
  · simp [hlex, report] at h

/-- **What one step can do.** Behind `before` there are blanks only, and the step takes them
and gives the end token; or it takes blanks and a lexeme `l`, and gives an error or a token
that stands where the lexeme does. -/
theorem next_cases (file : String) (before cs : List Char) :
    ((∀ c ∈ cs, isSpacing c) ∧ (Scanner.mk (.after file before) cs).next =
      (.ok (stopOf file (before ++ cs)), ⟨.after file (before ++ cs), []⟩)) ∨
    ∃ blanks l rest, cs = blanks ++ (l ++ rest) ∧ l ≠ [] ∧
      (Scanner.mk (.after file before) cs).next.2 = ⟨.after file (before ++ (blanks ++ l)), rest⟩ ∧
      ∀ t, (Scanner.mk (.after file before) cs).next.1 = .ok t →
        t.kind ≠ .eof ∧ t.pos = .after file (before ++ blanks) := by
  obtain hblank | ⟨blanks, c, cs, rfl, hblanks, hc⟩ := blanks_or_lexeme cs
  · left
    refine ⟨hblank, ?_⟩
    rw [next_blank _ hblank, Pos.advanceBy_after]
    rfl
  · right
    refine ⟨blanks, (lexemeAt c cs).taken, (lexemeAt c cs).rest, ?_, taken_ne_nil c cs, ?_, ?_⟩
    · rw [taken_append_rest]
    · rw [next_lexeme _ _ hblanks hc rfl, Pos.advanceBy_after, Pos.advanceBy_after, List.append_assoc]
    · intro t ht
      rw [next_lexeme _ _ hblanks hc rfl, Pos.advanceBy_after] at ht
      exact report_lexemeAt ht

/-! ### Many steps -/

/-- The scanner stands behind the part `before` of the source, where that part ends. -/
def Behind (s : Scanner) (file : String) (src before : List Char) : Prop :=
  s.pos = .after file before ∧ src = before ++ s.rest

theorem behind_ofSource (file src : String) : (ofSource file src).Behind file src.toList [] :=
  ⟨rfl, rfl⟩

variable {s : Scanner} {file : String} {src before : List Char}

theorem Behind.eq_mk (h : s.Behind file src before) : s = ⟨.after file before, s.rest⟩ := by
  rw [← h.1]

/-- What `next_cases` says of a scanner within a source. A step before the end reads some
more of the source, and a token stands in front of the end of what is read. -/
theorem Behind.next_cases (h : s.Behind file src before) :
    (s.next.1 = .ok (stopOf file src) ∧ s.next.2.Behind file src src) ∨
    ∃ blanks l, l ≠ [] ∧ s.rest = (blanks ++ l) ++ s.next.2.rest ∧
      s.next.2.Behind file src (before ++ (blanks ++ l)) ∧
      ∀ t, s.next.1 = .ok t → t.kind ≠ .eof ∧ t.pos = .after file (before ++ blanks) := by
  obtain ⟨-, hsrc⟩ := id h
  rw [h.eq_mk]
  obtain ⟨-, hnext⟩ | ⟨blanks, l, rest, hrest, hl, hafter, htoken⟩ := Scanner.next_cases file before s.rest
  · left
    rw [hnext, ← hsrc]
    exact ⟨rfl, rfl, (List.append_nil _).symm⟩
  · right
    refine ⟨blanks, l, hl, ?_, ⟨?_, ?_⟩, htoken⟩
    · rw [hafter, List.append_assoc]
      exact hrest
    · rw [hafter]
    · rw [hafter, hsrc, hrest]
      simp

theorem Behind.rest_eq_nil (h : s.Behind file src src) : s.rest = [] :=
  List.self_eq_append_right.mp h.2

/-- **After any number of steps the scanner stands behind a part of the source**, and the
parts only grow. -/
theorem exists_before (h : s.Behind file src before) :
    ∀ k, ∃ more, (s.after k).Behind file src (before ++ more)
  | 0 => ⟨[], by rwa [List.append_nil]⟩
  | k + 1 => by
    obtain ⟨more, hmore⟩ := exists_before h k
    obtain ⟨-, hend⟩ | ⟨blanks, l, -, -, hafter, -⟩ := hmore.next_cases
    · refine ⟨s.rest, ?_⟩
      rw [← h.2]
      exact hend
    · refine ⟨more ++ (blanks ++ l), ?_⟩
      rw [← List.append_assoc]
      exact hafter

theorem after_add (s : Scanner) (k : Nat) : ∀ m, s.after (k + m) = (s.after k).after m
  | 0 => rfl
  | m + 1 => by rw [after, ← after_add s k m]; rfl

/-- Each step leaves one character less, until none is left. -/
theorem length_after_le (h : s.Behind file src before) :
    ∀ k, (s.after k).rest.length ≤ s.rest.length - k
  | 0 => le_rfl
  | k + 1 => by
    have ih := length_after_le h k
    obtain ⟨more, hmore⟩ := exists_before h k
    rw [after]
    obtain ⟨-, hend⟩ | ⟨blanks, l, hl, hrest, -⟩ := hmore.next_cases
    · rw [hend.rest_eq_nil]
      exact Nat.zero_le _
    · have hlen := congrArg List.length hrest
      have hpos := List.length_pos_iff.mpr hl
      simp only [List.length_append] at hlen
      omega

/-- The scanner stays at the end of the source. -/
theorem Behind.next_at_end (h : s.Behind file src src) :
    s.next.1 = .ok (stopOf file src) ∧ s.next.2.Behind file src src := by
  obtain hend | ⟨blanks, l, hl, hrest, -⟩ := h.next_cases
  · exact hend
  · rw [h.rest_eq_nil] at hrest
    simp_all

theorem Behind.after_at_end (h : s.Behind file src src) : ∀ k, (s.after k).Behind file src src
  | 0 => h
  | k + 1 => (h.after_at_end k).next_at_end.2

/-- **Once the end token has come it comes again**, at the same place behind the last
character. -/
theorem call_of_isEnd (h : s.Behind file src before) {k m : Nat} (hk : IsEnd (s.call k)) (hm : k ≤ m) :
    s.call m = .ok (stopOf file src) := by
  obtain ⟨t, ht, hkind⟩ := hk
  obtain ⟨more, hmore⟩ := exists_before h k
  obtain ⟨hcall, hend⟩ | ⟨blanks, l, -, -, -, htoken⟩ := hmore.next_cases
  · obtain rfl | hlt := Nat.eq_or_lt_of_le hm
    · exact hcall
    · obtain ⟨d, rfl⟩ := Nat.exists_eq_add_of_lt hlt
      have hlast : (s.after (k + 1 + d)).Behind file src src := by
        rw [after_add]
        exact hend.after_at_end d
      rw [call, Nat.add_right_comm]
      exact hlast.next_at_end.1
  · exact absurd hkind (htoken t ht).1

/-- A token stands in what was not read before its step. -/
theorem Behind.exists_pos_eq (h : s.Behind file src before) {t : Token} (ht : s.next.1 = .ok t) :
    ∃ more, t.pos = .after file (before ++ more) := by
  obtain ⟨hcall, -⟩ | ⟨blanks, l, -, -, -, htoken⟩ := h.next_cases
  · obtain rfl : stopOf file src = t := Except.ok.inj (hcall.symm.trans ht)
    exact ⟨s.rest, by rw [← h.2]; rfl⟩
  · exact ⟨blanks, (htoken t ht).2⟩

/-- **Places increase from token to token**, with errors between them or not. What is read
between the two starts with the lexeme of the first. -/
theorem before_of_call (h : s.Behind file src before) {j k : Nat} (hjk : j < k) {t u : Token}
    (ht : s.call j = .ok t) (hkind : t.kind ≠ .eof) (hu : s.call k = .ok u) : t.pos.Before u.pos := by
  obtain ⟨more, hmore⟩ := exists_before h j
  obtain ⟨hcall, -⟩ | ⟨blanks, l, hl, -, hafter, htoken⟩ := hmore.next_cases
  · obtain rfl : stopOf file src = t := Except.ok.inj (hcall.symm.trans ht)
    exact absurd rfl hkind
  · obtain ⟨d, rfl⟩ := Nat.exists_eq_add_of_lt hjk
    obtain ⟨between, hbetween⟩ := exists_before (s := s.after (j + 1)) hafter d
    rw [← after_add, Nat.add_right_comm] at hbetween
    obtain ⟨last, hlast⟩ := hbetween.exists_pos_eq hu
    have hne : l ++ (between ++ last) ≠ [] := by simp [hl]
    rw [(htoken t ht).2, hlast]
    simpa using Pos.before_after file (before ++ more ++ blanks) hne

/-! ### The whole scan -/

/-- **A whole scan is made of few steps.** There are tokens, at most as many as characters,
and behind them an error or the end token, which ends the scan; all of them are what the
steps give. -/
theorem tokens_eq_steps (file : String) (cs : List Char) : ∀ before : List Char, ∃ ts : List Token,
    ts.length ≤ cs.length ∧ (∀ t ∈ ts, t.kind ≠ .eof) ∧
    ((∃ e, (Scanner.mk (.after file before) cs).steps (ts.length + 1) = ts.map .ok ++ [.error e] ∧
      (Scanner.mk (.after file before) cs).tokens = .error e) ∨
    ((Scanner.mk (.after file before) cs).steps (ts.length + 1) =
        (ts ++ [stopOf file (before ++ cs)]).map .ok ∧
      (Scanner.mk (.after file before) cs).tokens = .ok (ts ++ [stopOf file (before ++ cs)]))) := by
  induction cs using scan_induction with
  | blank cs hblank =>
    intro before
    refine ⟨[], Nat.zero_le _, by simp, .inr ⟨?_, ?_⟩⟩
    · rw [List.length_nil, steps, next_blank _ hblank, Pos.advanceBy_after]
      rfl
    · rw [tokens_blank _ hblank, Pos.advanceBy_after]
      rfl
  | lexeme blanks c cs hblanks hc ih =>
    intro before
    obtain ⟨ts, hlen, hkinds, hsteps⟩ := ih (before ++ (blanks ++ (lexemeAt c cs).taken))
    have hlt := length_rest_lt c cs
    have happ : before ++ (blanks ++ (lexemeAt c cs).taken) ++ (lexemeAt c cs).rest =
        before ++ (blanks ++ c :: cs) := by
      rw [← taken_append_rest c cs]
      simp
    have hnext := next_lexeme (.after file before) cs hblanks hc rfl
    have htokens := tokens_lexeme (.after file before) cs hblanks hc rfl
    rw [Pos.advanceBy_after, Pos.advanceBy_after, List.append_assoc] at hnext htokens
    rw [happ] at hsteps
    rcases hreport : report (.after file (before ++ blanks))
        (.after file (before ++ (blanks ++ (lexemeAt c cs).taken))) (lexemeAt c cs).meaning with e | t
    · rw [hreport] at hnext htokens
      refine ⟨[], Nat.zero_le _, by simp, .inl ⟨e, ?_, htokens⟩⟩
      rw [List.length_nil, steps, hnext]
      rfl
    · rw [hreport] at hnext htokens
      refine ⟨t :: ts, ?_, ?_, ?_⟩
      · rw [List.length_cons, List.length_append]
        omega
      · rintro u (_ | ⟨_, hu⟩)
        · exact (report_lexemeAt hreport).1
        · exact hkinds u hu
      · rw [List.length_cons, steps, hnext, htokens]
        obtain ⟨e, hrest, htokens⟩ | ⟨hrest, htokens⟩ := hsteps
        · exact .inl ⟨e, by rw [hrest]; rfl, by rw [htokens]; rfl⟩
        · exact .inr ⟨by rw [hrest]; rfl, by rw [htokens]; rfl⟩

end Scanner

/-- **The scanner makes progress, also after errors.** Any number of steps can be taken. Each
step that does not give the end token takes at least one character; the places of tokens
increase up to the first end token and with it. In a source of `n` characters, step `n + 1`
and all later ones give the end token, which stands right behind the last character wherever
it comes first; and a whole scan is made of at most `n + 1` steps, up to the first that gives
an error or the end token. -/
theorem scanner_makes_progress (file src : String) :
    (∀ n, (Scanner.ofSource file src).steps n = (List.range n).map (Scanner.ofSource file src).call) ∧
    (∀ k, ¬ IsEnd ((Scanner.ofSource file src).call k) → ∃ taken, taken ≠ [] ∧
      ((Scanner.ofSource file src).after k).rest =
        taken ++ ((Scanner.ofSource file src).after (k + 1)).rest) ∧
    (∀ j k t u, j < k → (∀ i < k, ¬ IsEnd ((Scanner.ofSource file src).call i)) →
      (Scanner.ofSource file src).call j = .ok t → (Scanner.ofSource file src).call k = .ok u →
        t.pos.Before u.pos) ∧
    (∃ ts : List Token, ts.length ≤ src.length ∧ (∀ t ∈ ts, t.kind ≠ .eof) ∧
      ((∃ e, (Scanner.ofSource file src).steps (ts.length + 1) = ts.map .ok ++ [.error e] ∧
        scan file src = .error e) ∨
      ((Scanner.ofSource file src).steps (ts.length + 1) = (ts ++ [stopOf file src.toList]).map .ok ∧
        scan file src = .ok (ts ++ [stopOf file src.toList])))) ∧
    (∀ k, src.length ≤ k → (Scanner.ofSource file src).call k = .ok (stopOf file src.toList)) ∧
    ∀ k m, IsEnd ((Scanner.ofSource file src).call k) → k ≤ m →
      (Scanner.ofSource file src).call m = .ok (stopOf file src.toList) := by
  have hstart := Scanner.behind_ofSource file src
  refine ⟨fun n => Scanner.steps_eq_map_call n _, fun k hk => ?_, fun j k t u hjk hends ht hu => ?_, ?_,
    fun k hk => ?_, fun k m => Scanner.call_of_isEnd hstart⟩
  · obtain ⟨more, hmore⟩ := Scanner.exists_before hstart k
    obtain ⟨hcall, -⟩ | ⟨blanks, l, hl, hrest, -⟩ := hmore.next_cases
    · exact absurd ⟨_, hcall, rfl⟩ hk
    · exact ⟨blanks ++ l, by simp [hl], hrest⟩
  · exact Scanner.before_of_call hstart hjk ht (fun hkind => hends j hjk ⟨t, ht, hkind⟩) hu
  · exact Scanner.tokens_eq_steps file src.toList []
  · have hlen := Scanner.length_after_le hstart k
    have hnil : ((Scanner.ofSource file src).after k).rest = [] := by
      apply List.eq_nil_of_length_eq_zero
      have hsrc : (Scanner.ofSource file src).rest.length = src.length := String.length_toList
      omega
    obtain ⟨more, hmore⟩ := Scanner.exists_before hstart k
    have hend : ((Scanner.ofSource file src).after k).Behind file src.toList src.toList := by
      have hall := hmore.2
      rw [hnil, List.append_nil] at hall
      rwa [← hall] at hmore
    exact hend.next_at_end.1

end Pseudocode
