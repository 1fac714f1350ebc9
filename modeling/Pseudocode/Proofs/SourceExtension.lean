/-
# A source that goes on

A text leads through lexemes to a rest (`Leads`). What stands behind the rest changes
nothing of the lexemes before it, except that a lexeme at the very end of the text might go
on, and a blank, a newline or a closing parenthesis keeps it from that (`Leads.append`). So the
lexemes of a text that goes on are those in front and then those of what is left
(`Leads.split`, `Leads.of_split`).

Every text leads to blanks at its end or to a first fault (`exists_leads`), and scanning it
fails exactly at that fault (`FirstFault`, `scan_eq_error_iff`). Where the fault is that the
text ends too early, the rest is a lexeme that is not finished: a text without its closing
quote, perhaps after a last backslash, or an exclamation mark (`BreaksOff`,
`exists_breaksOff`). Each of them can only become a token of one kind
(`BreaksOff.kind_of_split`), and on the next line it does (`BreaksOff.split`).

Key definitions: `Leads`, `FirstFault`, `Unfinished`, `BreaksOff`.
Key theorems: `Leads.append`, `Leads.of_split`, `exists_parseSource_iff`, `exists_leads`,
`scan_eq_error_iff`, `exists_breaksOff`, `BreaksOff.scan_eq`, `BreaksOff.kind_of_split`,
`BreaksOff.split`.
-/
import Pseudocode.Proofs.Completion
import Pseudocode.Proofs.LexicalFaults
import Pseudocode.Proofs.RoundTrip

namespace Pseudocode

/-- The text is the pieces one after the other and then `rest`: each lexeme follows the
lexical rules and is maximal where it stands. -/
inductive Leads : List Char → List Piece → List Char → Prop where
  | done {cs : List Char} : Leads cs [] cs
  | more {p : Piece} {cs : List Char} {ps : List Piece} {rest : List Char} :
      (∀ c ∈ p.blanks, isSpacing c) → Spells p.lexeme p.kind p.value p.name →
      Maximal p.lexeme cs → Leads cs ps rest → Leads (p.blanks ++ (p.lexeme ++ cs)) (p :: ps) rest

/-! ### What stands behind -/

theorem Split.leads {cs w : List Char} {ps : List Piece} (h : Split cs ps w) :
    Leads cs ps w ∧ ∀ c ∈ w, isSpacing c := by
  induction h with
  | done hw => exact ⟨.done, hw⟩
  | more hb hs hmax _ ih => exact ⟨.more hb hs hmax ih.1, ih.2⟩

/-- A lexeme that is maximal stays so when the text goes on behind what follows it. -/
theorem Maximal.append {l rest later : List Char} (h : Maximal l rest)
    (hlater : rest = [] → Separated later) : Maximal l (rest ++ later) := by
  cases rest with
  | nil => exact (hlater rfl).maximal l
  | cons c rest => exact ⟨h.word, h.number, h.less, h.greater⟩

theorem Leads.eq_nil {cs rest : List Char} {ps : List Piece} (h : Leads cs ps rest) (hcs : cs = []) :
    rest = [] := by
  cases h with
  | done => exact hcs
  | more _ hs _ _ =>
    obtain ⟨c, l, hl, -⟩ := hs.exists_cons
    simp [hl] at hcs

/-- **Text behind the rest changes nothing of what is in front.** -/
theorem Leads.append {cs rest later : List Char} {ps : List Piece} (h : Leads cs ps rest)
    (hlater : rest = [] → Separated later) : Leads (cs ++ later) ps (rest ++ later) := by
  induction h with
  | done => exact .done
  | @more p cs ps rest hb hs hmax htail ih =>
    have hmax' : Maximal p.lexeme (cs ++ later) := hmax.append fun hcs => hlater (htail.eq_nil hcs)
    simpa using Leads.more hb hs hmax' (ih hlater)

theorem Leads.split {cs rest w : List Char} {ps qs : List Piece} (h : Leads cs ps rest)
    (hrest : Split rest qs w) : Split cs (ps ++ qs) w := by
  induction h with
  | done => exact hrest
  | more hb hs hmax _ ih => exact .more hb hs hmax (ih hrest)

/-- A split goes on from every rest. -/
theorem Leads.of_split {cs rest w : List Char} {ps ps' : List Piece} (h : Leads cs ps rest)
    (h' : Split cs ps' w) : ∃ qs, ps' = ps ++ qs ∧ Split rest qs w := by
  induction h generalizing ps' with
  | done => exact ⟨ps', rfl, h'⟩
  | @more p cs ps rest hb hs hmax _ ih =>
    generalize hcs : p.blanks ++ (p.lexeme ++ cs) = cs₀ at h'
    cases h' with
    | done hw => exact (not_split_more hs (hcs ▸ hw)).elim
    | @more p' cs' ps' _ hb' hs' hmax' htail =>
      obtain ⟨hblanks, happ⟩ := append_run_inj hb hb' (hs.head?_append _) (hs'.head?_append _) hcs
      obtain ⟨⟨hl, rfl⟩, hk, hv, hn⟩ := hs.unique hmax hs' hmax' happ
      obtain ⟨qs, rfl, hrest⟩ := ih htail
      have hp : p = p' := by
        cases p
        cases p'
        simp_all
      exact ⟨qs, by rw [hp, List.cons_append], hrest⟩

/-- Blanks in front of a text move its tokens and change nothing else. -/
theorem Split.append_blanks {blanks cs w : List Char} {ps : List Piece} (h : Split cs ps w)
    (hb : ∀ c ∈ blanks, isSpacing c) :
    ∃ ps' w', Split (blanks ++ cs) ps' w' ∧ ps'.map Piece.token = ps.map Piece.token := by
  have hall : ∀ {l : List Char}, (∀ c ∈ l, isSpacing c) → ∀ c ∈ blanks ++ l, isSpacing c := by
    intro l hl c hc
    exact (List.mem_append.mp hc).elim (hb c) (hl c)
  cases h with
  | done hw => exact ⟨[], _, .done (hall hw), rfl⟩
  | @more p rest ps w hp hs hmax htail =>
    refine ⟨{ p with blanks := blanks ++ p.blanks } :: ps, w, ?_, rfl⟩
    rw [← List.append_assoc]
    exact Split.more (p := { p with blanks := blanks ++ p.blanks }) (hall hp) hs hmax htail

/-! ### Sources that parse -/

theorem map_kind_tokensOf (file : String) (w : List Char) : ∀ (ps : List Piece) (before : List Char),
    (tokensOf file before ps w).map Token.kind = ps.map Piece.kind ++ [.eof]
  | [], _ => rfl
  | p :: ps, before => by simp [tokensOf, map_kind_tokensOf file w ps]

/-- Tokens of the kinds of pieces, and an end. -/
theorem Split.exists_body {cs w : List Char} {ps : List Piece} (h : Split cs ps w) {ts : List Token}
    (hts : ts.map Token.kind = ps.map Piece.kind ++ [.eof]) :
    ∃ body stop, ts = body ++ [stop] ∧ body.map Token.kind = ps.map Piece.kind ∧
      (∀ t ∈ body, t.kind ≠ .eof) ∧ stop.kind = .eof := by
  obtain ⟨body, stops, rfl, hbody, hstops⟩ := List.map_eq_append_iff.mp hts
  obtain ⟨stop, stops, rfl, hstop, hnil⟩ := List.map_eq_cons_iff.mp hstops
  obtain rfl := List.map_eq_nil_iff.mp hnil
  refine ⟨body, stop, rfl, hbody, fun t ht => ?_, hstop⟩
  have hmem : t.kind ∈ ps.map Piece.kind := hbody ▸ List.mem_map_of_mem ht
  obtain ⟨p, hp, hk⟩ := List.mem_map.mp hmem
  exact hk ▸ (h.spells_of_mem p hp).kind_ne_eof

theorem Split.terminated {cs w : List Char} {ps : List Piece} (h : Split cs ps w) {ts : List Token}
    (hts : ts.map Token.kind = ps.map Piece.kind ++ [.eof]) : Terminated ts := by
  obtain ⟨body, stop, rfl, -, hbody, hstop⟩ := h.exists_body hts
  exact ⟨body, stop, rfl, hbody, hstop⟩

/-- The tokens of pieces without places, and an end token. -/
def bareTokens (ps : List Piece) : List Token := ps.map Piece.token ++ [{ kind := .eof }]

theorem map_kind_bareTokens (ps : List Piece) :
    (bareTokens ps).map Token.kind = ps.map Piece.kind ++ [.eof] := by
  simp [bareTokens, Function.comp_def, Piece.token]

/-- **A source parses exactly if it splits into lexemes whose kinds are accepted**, whatever
its file is called. -/
theorem exists_parseSource_iff {file src : String} : (∃ x, parseSource file src = .ok x) ↔
    ∃ ps w, Split src.toList ps w ∧ ∃ x, parseTokens (bareTokens ps) = .ok x := by
  constructor
  · rintro ⟨x, hx⟩
    obtain ⟨ts, hscan, hparse⟩ := parseSource_eq_ok_iff.mp hx
    obtain ⟨ps, w, hsplit, rfl⟩ := scan_eq_ok_iff.mp hscan
    have hts := map_kind_tokensOf file w ps []
    have hkinds := (map_kind_bareTokens ps).trans hts.symm
    exact ⟨ps, w, hsplit, (parseTokens_ok_of_kinds (hsplit.terminated hts) hkinds hparse).2⟩
  · rintro ⟨ps, w, hsplit, x, hparse⟩
    have hbare := map_kind_bareTokens ps
    have hkinds := (map_kind_tokensOf file w ps []).trans hbare.symm
    obtain ⟨-, x', hx'⟩ := parseTokens_ok_of_kinds (hsplit.terminated hbare) hkinds hparse
    exact ⟨x', parseSource_eq_ok_iff.mpr ⟨_, scan_eq_ok_iff.mpr ⟨ps, w, hsplit, rfl⟩, hx'⟩⟩

/-! ### The first fault -/

/-- The text of pieces. -/
def textOf (ps : List Piece) : List Char := ps.flatMap fun p => p.blanks ++ p.lexeme

/-- The tokens of pieces that stand after `before`. -/
def placedTokens (file : String) (before : List Char) : List Piece → List Token
  | [] => []
  | p :: ps => ⟨p.kind, .after file (before ++ p.blanks), p.value, p.name⟩ ::
      placedTokens file (before ++ (p.blanks ++ p.lexeme)) ps

theorem Leads.textOf_append {cs rest : List Char} {ps : List Piece} (h : Leads cs ps rest) :
    textOf ps ++ rest = cs := by
  induction h with
  | done => rfl
  | more _ _ _ _ ih => simpa [textOf] using ih

theorem map_append_map {ε α : Type} (r : Except ε (List α)) (as bs : List α) :
    (r.map (bs ++ ·)).map (as ++ ·) = r.map (as ++ bs ++ ·) := by
  cases r with
  | error e => rfl
  | ok cs => simp [Except.map]

/-- Scanning goes through the lexemes in front and then on from the rest. -/
theorem Leads.tokens_eq (file : String) {cs rest : List Char} {ps : List Piece} (h : Leads cs ps rest) :
    ∀ before : List Char, (Scanner.mk (.after file before) cs).tokens =
      (Scanner.mk (.after file (before ++ textOf ps)) rest).tokens.map (placedTokens file before ps ++ ·) := by
  induction h with
  | @done cs =>
    intro before
    simp only [textOf, List.flatMap_nil, List.append_nil, placedTokens]
    cases (Scanner.mk (.after file before) cs).tokens <;> rfl
  | @more p cs ps rest hb hs hmax _ ih =>
    intro before
    obtain ⟨c, l, hl, hc, hlex⟩ := hs.exists_lexemeAt hmax
    have hread : before ++ textOf (p :: ps) = before ++ (p.blanks ++ p.lexeme) ++ textOf ps := by
      simp [textOf]
    rw [hl, List.cons_append, Scanner.tokens_lexeme _ _ hb hc hlex, Pos.advanceBy_after,
      Pos.advanceBy_after, List.append_assoc, ih, hread]
    cases (Scanner.mk (.after file (before ++ (p.blanks ++ p.lexeme) ++ textOf ps)) rest).tokens <;> rfl

/-- **Every text leads to its end or to a first fault.** The induction is on the length of
the text, which every lexeme shortens. -/
theorem exists_leads (cs : List Char) : ∃ ps blanks rest, Leads cs ps (blanks ++ rest) ∧
    (∀ c ∈ blanks, isSpacing c) ∧ (∀ c ∈ rest.head?, ¬ isSpacing c) ∧
      ∀ c l, rest = c :: l → ∀ k v n, (lexemeAt c l).meaning ≠ .token k v n := by
  induction hn : cs.length using Nat.strong_induction_on generalizing cs with
  | _ n ih =>
    have hblank : ∀ c ∈ cs.takeWhile isSpacing, isSpacing c := fun c hc => List.mem_takeWhile_imp hc
    have happ : cs.takeWhile isSpacing ++ cs.dropWhile isSpacing = cs := List.takeWhile_append_dropWhile
    have hhead : ∀ c ∈ (cs.dropWhile isSpacing).head?, ¬ isSpacing c := head?_dropWhile
    generalize cs.takeWhile isSpacing = blanks at hblank happ
    generalize cs.dropWhile isSpacing = rest at happ hhead
    subst happ
    by_cases htoken : ∃ c l k v n, rest = c :: l ∧ (lexemeAt c l).meaning = .token k v n
    · obtain ⟨c, l, k, v, name, rfl, hmeaning⟩ := htoken
      obtain ⟨taken, rest, hlex⟩ : ∃ taken rest, lexemeAt c l = ⟨.token k v name, taken, rest⟩ :=
        ⟨_, _, by rw [← hmeaning]⟩
      obtain ⟨hcs, hs, hmax⟩ := lexemeAt_eq_token_iff.mp hlex
      have hlt : rest.length < n := by
        have hlen := length_rest_lt c l
        rw [hlex] at hlen
        rw [← hn, List.length_append]
        exact Nat.lt_add_left _ hlen
      obtain ⟨ps, blanks', rest', hleads, hrest'⟩ := ih rest.length hlt rest rfl
      rw [hcs]
      exact ⟨_, blanks', rest', .more (p := ⟨blanks, taken, k, v, name⟩) hblank hs hmax hleads, hrest'⟩
    · refine ⟨[], blanks, rest, .done, hblank, hhead, fun c l hcl k v n hmeaning => htoken ?_⟩
      exact ⟨c, l, k, v, n, hcl, hmeaning⟩

/-- The text leads through the pieces and `blanks` to `l` in front of `rest`, which is misspelt,
and `e` is the error that tells of it. -/
structure FirstFault (file : String) (cs : List Char) (ps : List Piece) (blanks l rest : List Char)
    (e : ScanError) : Prop where
  leads : Leads cs ps (blanks ++ (l ++ rest))
  blank : ∀ c ∈ blanks, isSpacing c
  head : ∀ c ∈ l.head?, ¬ isSpacing c
  fault : ∃ m, Misspelt l rest m ∧
    Scanner.report (.after file (textOf ps ++ blanks)) (.after file (textOf ps ++ blanks ++ l)) m = .error e

/-- A misspelt lexeme ends the scan. -/
theorem FirstFault.scan_eq {file src : String} {ps : List Piece} {blanks l rest : List Char} {e : ScanError}
    (h : FirstFault file src.toList ps blanks l rest e) : scan file src = .error e := by
  obtain ⟨m, hm, hreport⟩ := h.fault
  obtain ⟨c, cs, rfl, hlex⟩ := hm.lexemeAt_eq
  have hc : ¬ isSpacing c := h.head c rfl
  rw [scan, Scanner.ofSource, ← Pos.after_nil, h.leads.tokens_eq, List.cons_append,
    Scanner.tokens_lexeme _ _ h.blank hc hlex, Pos.advanceBy_after, Pos.advanceBy_after, List.nil_append,
    hreport]
  rfl

/-- **Scanning fails exactly at the first lexeme that is misspelt.** -/
theorem scan_eq_error_iff {file src : String} {e : ScanError} :
    scan file src = .error e ↔ ∃ ps blanks l rest, FirstFault file src.toList ps blanks l rest e := by
  constructor
  · intro h
    obtain ⟨ps, blanks, rest, hleads, hb, hhead, hfault⟩ := exists_leads src.toList
    cases rest with
    | nil =>
      rw [scan, Scanner.ofSource, ← Pos.after_nil, hleads.tokens_eq, List.append_nil,
        Scanner.tokens_blank _ hb] at h
      simp [Except.map] at h
    | cons c cs =>
      -- what is no token is misspelt, and its report is the error of the scan
      rcases hlex : lexemeAt c cs with ⟨m, l, rest⟩
      have hm : ∀ k v n, m ≠ .token k v n := fun k v n hm => hfault c cs rfl k v n (by rw [hlex, hm])
      obtain ⟨hcs, hmisspelt⟩ := (lexemeAt_eq_fault_iff hm).mp hlex
      obtain ⟨d, ds, rfl, -⟩ := hmisspelt.lexemeAt_eq
      obtain ⟨rfl, rfl⟩ := List.cons.inj hcs
      obtain ⟨e', he'⟩ : ∃ e', Scanner.report (.after file (textOf ps ++ blanks))
          (.after file (textOf ps ++ blanks ++ c :: ds)) m = .error e' := by
        cases m with
        | token k v n => exact absurd rfl (hm k v n)
        | faultAtStart fault code => exact ⟨_, rfl⟩
        | faultAfter fault code => exact ⟨_, rfl⟩
      have hfirst : FirstFault file src.toList ps blanks (c :: ds) rest e' :=
        ⟨hleads, hb, by simpa using hhead c rfl, m, hmisspelt, he'⟩
      obtain rfl : e' = e := Except.error.inj (hfirst.scan_eq.symm.trans h)
      exact ⟨ps, blanks, c :: ds, rest, hfirst⟩
  · rintro ⟨ps, blanks, l, rest, h⟩
    exact h.scan_eq

/-! ### Sources that end too early -/

/-- A lexeme that the text ends in, and the kind of the only tokens it can become. -/
inductive Unfinished : List Char → TokenKind → Prop where
  | text {body text : List Char} : Quoted body text → Unfinished ('\'' :: body) .literal
  /-- The last character is a backslash and escapes the next one, whatever it is. -/
  | escape {body text : List Char} : Quoted body text → Unfinished ('\'' :: body ++ ['\\']) .literal
  | notEqual : Unfinished ['!'] .notEqual

/-- The text leads through the pieces to an unfinished lexeme. -/
def BreaksOff (cs : List Char) (ps : List Piece) (k : TokenKind) : Prop :=
  ∃ blanks l, Leads cs ps (blanks ++ l) ∧ (∀ c ∈ blanks, isSpacing c) ∧ Unfinished l k

theorem quoted_of_quotedRun_none (cs : List Char) : (quotedRun cs).2.1 = none →
    (∃ text, Quoted cs text) ∨ ∃ body text, cs = body ++ ['\\'] ∧ Quoted body text := by
  induction cs using quotedRun.induct with
  | case1 => exact fun _ => .inl ⟨[], .nil⟩
  | case2 cs =>
    intro h
    simp [quotedRun_quote] at h
  | case3 => exact fun _ => .inr ⟨[], [], rfl, .nil⟩
  | case4 d ds run text rest heq _ ih =>
    intro h
    rw [quotedRun_escape, Option.map_eq_none_iff] at h
    have hd : ∀ {body text : List Char}, Quoted body text → ∃ text, Quoted ('\\' :: d :: body) text := by
      intro body text hq
      by_cases hd : d = 'n'
      · exact ⟨_, hd ▸ hq.newline⟩
      · exact ⟨_, hq.escaped hd⟩
    obtain ⟨text', hq⟩ | ⟨body, text', rfl, hq⟩ := ih h
    · exact .inl (hd hq)
    · obtain ⟨text'', hq'⟩ := hd hq
      exact .inr ⟨'\\' :: d :: body, text'', rfl, hq'⟩
  | case5 c cs hc hb run text rest heq ih =>
    intro h
    rw [quotedRun_plain hc hb, Option.map_eq_none_iff] at h
    obtain ⟨text', hq⟩ | ⟨body, text', rfl, hq⟩ := ih h
    · exact .inl ⟨c :: text', hq.plain hc hb⟩
    · exact .inr ⟨c :: body, c :: text', rfl, hq.plain hc hb⟩

/-- The character that a lexeme for a token of a kind is left open at. -/
def openCode (k : TokenKind) : Int := if k = .literal then '\''.toNat else '!'.toNat

theorem Quoted.quotedRun_append {body text : List Char} (h : Quoted body text) (rest : List Char) :
    quotedRun (body ++ rest) = (body ++ (quotedRun rest).1, (quotedRun rest).2.1.map (text ++ ·),
      (quotedRun rest).2.2) := by
  induction h with
  | nil => simp
  | newline _ ih => simp [quotedRun_escape, ih, unescaped, Function.comp_def]
  | escaped hc _ ih => simp [quotedRun_escape, ih, unescaped, hc, Function.comp_def]
  | plain hq hb _ ih => simp [quotedRun_plain hq hb, ih, Function.comp_def]

/-- An unfinished lexeme is a fault: the text ends too early. -/
theorem Unfinished.exists_meaning {l : List Char} {k : TokenKind} (h : Unfinished l k) :
    ∃ c cs, l = c :: cs ∧ ¬ isSpacing c ∧
      (lexemeAt c cs).meaning = .faultAtStart .unexpectedEnd (openCode k) := by
  cases h with
  | @text body text hq =>
    have hrun := hq.quotedRun_append []
    rw [List.append_nil] at hrun
    exact ⟨'\'', body, rfl, by decide, by simp [lexemeAt_quote, textAt, hrun, quotedRun, openCode]⟩
  | @escape body text hq =>
    have hrun := hq.quotedRun_append ['\\']
    exact ⟨'\'', body ++ ['\\'], rfl, by decide, by simp [lexemeAt_quote, textAt, hrun, quotedRun, openCode]⟩
  | notEqual => exact ⟨'!', [], rfl, by decide, by rw [lexemeAt_exclamation]; rfl⟩

/-- Only an unfinished lexeme ends too early. -/
theorem FirstFault.exists_unfinished {file : String} {cs : List Char} {ps : List Piece}
    {blanks l rest : List Char} {e : ScanError} (h : FirstFault file cs ps blanks l rest e)
    (he : e.fault = .unexpectedEnd) : rest = [] ∧ ∃ k, Unfinished l k := by
  obtain ⟨m, hm, hreport⟩ := h.fault
  cases hm with
  | glued =>
    obtain rfl := Except.error.inj hreport
    exact absurd he nofun
  | number =>
    obtain rfl := Except.error.inj hreport
    obtain hfault | hfault := numberFault_cases l
    · exact absurd (hfault.symm.trans he) nofun
    · exact absurd (hfault.symm.trans he) nofun
  | @text cs hcs =>
    refine ⟨rfl, .literal, ?_⟩
    obtain ⟨text, hq⟩ | ⟨body, text, rfl, hq⟩ :=
      quoted_of_quotedRun_none cs (by rw [quotedRun_eq_none_iff.mpr hcs])
    · exact .text hq
    · exact .escape hq
  | lastMark => exact ⟨rfl, .notEqual, .notEqual⟩
  | mark =>
    obtain rfl := Except.error.inj hreport
    exact absurd he nofun
  | stray =>
    obtain rfl := Except.error.inj hreport
    exact absurd he nofun

/-- Scanning a text that breaks off fails where the unfinished lexeme starts. -/
theorem BreaksOff.scan_eq {src : String} {ps : List Piece} {k : TokenKind} (h : BreaksOff src.toList ps k)
    (file : String) : ∃ pos, scan file src = .error ⟨.unexpectedEnd, pos, openCode k⟩ := by
  obtain ⟨blanks, l, hleads, hb, hl⟩ := h
  obtain ⟨c, cs, rfl, hc, hmeaning⟩ := hl.exists_meaning
  have htokens := hleads.tokens_eq file []
  rw [Scanner.tokens_lexeme _ _ hb hc rfl, hmeaning, Pos.after_nil] at htokens
  exact ⟨_, htokens⟩

/-- **A text that ends too early breaks off in an unfinished lexeme.** -/
theorem exists_breaksOff {file src : String} {e : ScanError} (h : scan file src = .error e)
    (he : e.fault = .unexpectedEnd) : ∃ ps k, BreaksOff src.toList ps k := by
  obtain ⟨ps, blanks, l, rest, hfault⟩ := scan_eq_error_iff.mp h
  obtain ⟨rfl, k, hk⟩ := hfault.exists_unfinished he
  have hleads := hfault.leads
  rw [List.append_nil] at hleads
  exact ⟨ps, k, blanks, l, hleads, hfault.blank, hk⟩

theorem kind_of_lexemeAt_quote {cs : List Char} {k : TokenKind} {v : Value} {n : String}
    (h : (lexemeAt '\'' cs).meaning = .token k v n) : k = .literal := by
  rcases hrun : quotedRun cs with ⟨run, _ | text, rest⟩
  · simp [lexemeAt_quote, textAt, hrun] at h
  · simp only [lexemeAt_quote, textAt, hrun, Meaning.literal, Meaning.token.injEq] at h
    exact h.1.symm

theorem kind_of_lexemeAt_exclamation {cs : List Char} {k : TokenKind} {v : Value} {n : String}
    (h : (lexemeAt '!' cs).meaning = .token k v n) : k = .notEqual := by
  have hsingle : ∀ {cs}, singleMeaning '!' cs ≠ .token k v n := fun hm => by
    have := (singleMeaning_eq_token hm).1
    simp [singleSymbol?] at this
  rw [lexemeAt_exclamation] at h
  cases cs with
  | nil =>
    simp only [symbolAt] at h
    exact absurd h hsingle
  | cons d ds =>
    cases hdouble : doubleSymbol? '!' d with
    | none =>
      simp only [symbolAt, hdouble] at h
      exact absurd h hsingle
    | some k' =>
      simp only [symbolAt, hdouble, Meaning.plain, Meaning.token.injEq] at h
      obtain ⟨rfl, -⟩ := h
      unfold doubleSymbol? at hdouble
      split at hdouble <;> simp_all

/-- An unfinished lexeme that goes on is a token of its kind, if it is one at all. -/
theorem Unfinished.kind_of_lexemeAt {l later : List Char} {k : TokenKind} (h : Unfinished l k) {c : Char}
    {cs : List Char} (hcs : l ++ later = c :: cs) {k' : TokenKind} {v : Value} {n : String}
    (hlex : (lexemeAt c cs).meaning = .token k' v n) : k' = k := by
  cases h with
  | text | escape =>
    obtain ⟨rfl, -⟩ := List.cons.inj hcs
    exact kind_of_lexemeAt_quote hlex
  | notEqual =>
    obtain ⟨rfl, -⟩ := List.cons.inj hcs
    exact kind_of_lexemeAt_exclamation hlex

/-- **What breaks off can go on with a token of one kind only.** -/
theorem BreaksOff.kind_of_split {cs later w : List Char} {ps ps' : List Piece} {k : TokenKind}
    (h : BreaksOff cs ps k) (hsplit : Split (cs ++ later) ps' w) :
    ∃ q qs, ps' = ps ++ q :: qs ∧ q.kind = k := by
  obtain ⟨blanks, l, hleads, hb, hl⟩ := h
  obtain ⟨c, l', rfl, hc, -⟩ := hl.exists_meaning
  have hmore : Leads (cs ++ later) ps (blanks ++ c :: l' ++ later) := hleads.append (by simp)
  obtain ⟨qs, rfl, hrest⟩ := hmore.of_split hsplit
  rw [List.append_assoc] at hrest
  generalize hcs : blanks ++ (c :: l' ++ later) = cs' at hrest
  cases hrest with
  | done hw => exact absurd (hw c (by simp [← hcs])) hc
  | @more q rest qs _ hq hs hmax _ =>
    have hhead : ∀ d ∈ (c :: l' ++ later).head?, ¬ isSpacing d := by simpa using hc
    obtain ⟨-, happ⟩ := append_run_inj hb hq hhead (hs.head?_append rest) hcs
    have hlex := lexemeAt_eq_token_iff.mpr ⟨happ, hs, hmax⟩
    exact ⟨q, qs, rfl, hl.kind_of_lexemeAt rfl (congrArg Lexeme.meaning hlex)⟩

/-! ### Finishing what breaks off -/

/-- What is put behind a lexeme left open before the next line. -/
def openSeparator (k : TokenKind) : List Char := if k = .literal then ['\n'] else []

/-- What the next line starts with to finish a lexeme left open. -/
def finisher (k : TokenKind) : Char := if k = .literal then '\'' else '='

theorem Quoted.append {body text body' text' : List Char} (h : Quoted body text) (h' : Quoted body' text') :
    Quoted (body ++ body') (text ++ text') := by
  induction h with
  | nil => exact h'
  | newline _ ih => exact ih.newline
  | escaped hc _ ih => exact ih.escaped hc
  | plain hq hb _ ih => exact ih.plain hq hb

/-- An unfinished lexeme has an end on the next line. A last backslash takes the line
break between them. -/
theorem Unfinished.exists_spells {l : List Char} {k : TokenKind} (h : Unfinished l k) :
    ∃ v, Spells (l ++ openSeparator k ++ [finisher k]) k v "" := by
  cases h with
  | @text body text hq =>
    have hbreak : Quoted ['\n'] ['\n'] := Quoted.nil.plain (by decide) (by decide)
    exact ⟨_, .text (hq.append hbreak)⟩
  | @escape body text hq =>
    have hbreak : Quoted ['\\', '\n'] ['\n'] := Quoted.nil.escaped (by decide)
    have hspells := Spells.text (hq.append hbreak)
    exact ⟨_, by simpa [openSeparator, finisher] using hspells⟩
  | notEqual => exact ⟨.invalid, .symbol (k := .notEqual) (by decide)⟩

theorem Unfinished.maximal {l : List Char} {k : TokenKind} (h : Unfinished l k) (later rest : List Char) :
    Maximal (l ++ later) rest := by
  cases h <;> exact .of_symbol (by decide) (by decide) (by simp) (by simp)

/-- **What breaks off goes on with a token of its kind and any lexemes.** -/
theorem BreaksOff.split {cs later w : List Char} {ps qs : List Piece} {k : TokenKind}
    (h : BreaksOff cs ps k) (hlater : Split later qs w) :
    ∃ q, q.kind = k ∧ Split (cs ++ (openSeparator k ++ finisher k :: later)) (ps ++ q :: qs) w := by
  obtain ⟨blanks, l, hleads, hb, hl⟩ := h
  obtain ⟨v, hspells⟩ := hl.exists_spells
  have hmax : Maximal (l ++ openSeparator k ++ [finisher k]) later := by
    rw [List.append_assoc]
    exact hl.maximal _ _
  let q : Piece := ⟨blanks, l ++ openSeparator k ++ [finisher k], k, v, ""⟩
  have hrest := Split.more (p := q) hb hspells hmax hlater
  have hne : blanks ++ l ≠ [] := by
    obtain ⟨c, l', rfl, -⟩ := hl.exists_meaning
    simp
  have hfront : Leads (cs ++ (openSeparator k ++ finisher k :: later)) ps
      (blanks ++ l ++ (openSeparator k ++ finisher k :: later)) := hleads.append (absurd · hne)
  exact ⟨q, rfl, hfront.split (by simpa [q] using hrest)⟩

end Pseudocode
