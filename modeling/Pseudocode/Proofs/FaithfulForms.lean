/-
# Forms that can be told apart

Places, kinds of tokens and literals are shown as text, and from the text one can tell
what is shown. A place is its line and its column behind the name of the file, and both
numbers end where a character comes that is no digit (`Pos.text_append_inj`). The
spellings in the vocabulary are different words (`TokenKind.spelling_inj`). A quoted text
is a chain of characters and escapes, and each escape says with its letter how many
digits belong to it (`Escapes`), so that one can read it from the left
(`quoteText_injective`). With the numerals, which the scanner reads back, this covers every
literal (`Value.display_inj`, `Value.debug_inj`). None of these forms holds a newline.

Key definitions: `hexValue`, `Escapes`.
Key theorems: `escapes_escaped`, `quoteText_injective`, `Pos.text_append_inj`,
`TokenKind.spelling_inj`, `Value.display_inj`, `Value.debug_inj`.
-/
import Pseudocode.Proofs.RoundTrip

namespace Pseudocode

/-- A text ends where the character comes that it does not hold. -/
theorem append_stop_inj {stop : Char} {l l' rest rest' : List Char} (hl : stop ∉ l) (hl' : stop ∉ l')
    (h : l ++ stop :: rest = l' ++ stop :: rest') : l = l' ∧ rest = rest' := by
  have hclass : ∀ {l : List Char}, stop ∉ l → ∀ c ∈ l, (c != stop) = true := by
    intro l hl c hc
    exact bne_iff_ne.mpr fun heq => hl (heq ▸ hc)
  obtain ⟨rfl, hrest⟩ := append_run_inj (hclass hl) (hclass hl') (by simp) (by simp) h
  exact ⟨rfl, List.tail_eq_of_cons_eq hrest⟩

/-! ### Hexadecimal digits -/

/-- The number a lower-case hexadecimal digit stands for. -/
def hexDigitValue (c : Char) : Nat := if c.toNat < 97 then c.toNat - 48 else c.toNat - 87

/-- The number that hexadecimal digits stand for. -/
def hexValue (ds : List Char) : Nat := ds.foldl (fun n c => 16 * n + hexDigitValue c) 0

theorem hexValue_concat (ds : List Char) (c : Char) : hexValue (ds ++ [c]) = 16 * hexValue ds + hexDigitValue c := by
  simp [hexValue]

theorem hexDigitValue_digitChar : ∀ d < 16, hexDigitValue (Nat.digitChar d) = d := by
  decide

theorem digitChar_ne_newline : ∀ d < 16, Nat.digitChar d ≠ '\n' := by
  decide

/-- The digits of a number stand for it, and no newline is among them. -/
theorem hexValue_toDigits (n : Nat) : hexValue (Nat.toDigits 16 n) = n ∧ '\n' ∉ Nat.toDigits 16 n := by
  induction n using Nat.strong_induction_on with
  | _ n ih =>
    by_cases hn : n < 16
    · rw [Nat.toDigits_of_lt_base hn]
      have hvalue := hexDigitValue_digitChar n hn
      have hne := digitChar_ne_newline n hn
      exact ⟨by simpa [hexValue] using hvalue, by simp [hne.symm]⟩
    · have hmod : n % 16 < 16 := Nat.mod_lt n (by decide)
      obtain ⟨hfront, hmem⟩ := ih (n / 16) (by omega)
      rw [Nat.toDigits_of_base_le (by decide) (by omega)]
      constructor
      · rw [hexValue_concat, hfront, hexDigitValue_digitChar _ hmod]
        omega
      · rw [List.mem_append, List.mem_singleton]
        rintro (h | h)
        · exact hmem h
        · exact digitChar_ne_newline _ hmod h.symm

theorem hexValue_hexDigits (width n : Nat) : hexValue (hexDigits width n) = n := by
  have hzeros : ∀ k, hexValue (List.replicate k '0' ++ Nat.toDigits 16 n) = hexValue (Nat.toDigits 16 n) := by
    intro k
    induction k with
    | zero => rfl
    | succ k ih => exact ih
  unfold hexDigits
  rw [hzeros, (hexValue_toDigits n).1]

theorem newline_not_mem_hexDigits (width n : Nat) : '\n' ∉ hexDigits width n := by
  unfold hexDigits
  rw [List.mem_append, List.mem_replicate]
  rintro (⟨-, h⟩ | h)
  · exact absurd h (by decide)
  · exact (hexValue_toDigits n).2 h

theorem length_hexDigits {width n : Nat} (hw : 0 < width) (hn : n < 16 ^ width) :
    (hexDigits width n).length = width := by
  have hle := (Nat.length_toDigits_le_iff (by decide) hw).mpr hn
  simp only [hexDigits, List.length_append, List.length_replicate]
  omega

/-! ### Escapes -/

/-- How many digits follow the letter of an escape. -/
def escapeWidth : Char → Nat
  | 'x' => 2
  | 'u' => 4
  | 'U' => 8
  | _ => 0

/-- The character that the letter of an escape and its digits stand for. -/
def escapeMeaning (letter : Char) (digits : List Char) : Char :=
  match letter with
  | 'x' | 'u' | 'U' => Char.ofNat (hexValue digits)
  | 'a' => '\x07'
  | 'b' => '\x08'
  | 'f' => '\x0c'
  | 'n' => '\n'
  | 'r' => '\r'
  | 't' => '\t'
  | 'v' => '\x0b'
  | c => c

/-- The ways to write a character inside quotes: as it is, or as a backslash, a letter and
the digits that this letter asks for. -/
inductive Escapes : Char → List Char → Prop where
  | plain {c : Char} : c ≠ '\\' → c ≠ '\n' → Escapes c [c]
  | escape {c letter : Char} {digits : List Char} : digits.length = escapeWidth letter →
      escapeMeaning letter digits = c → letter ≠ '\n' → '\n' ∉ digits → Escapes c ('\\' :: letter :: digits)

theorem Escapes.ne_nil {c : Char} {l : List Char} (h : Escapes c l) : l ≠ [] := by
  cases h <;> simp

theorem Escapes.newline_not_mem {c : Char} {l : List Char} (h : Escapes c l) : '\n' ∉ l := by
  cases h with
  | plain _ hc => simpa using hc.symm
  | escape _ _ hletter hdigits => simp [hdigits, hletter.symm]

/-- What is written from the left is read from the left: the first character and where the
next one starts. -/
theorem Escapes.append_inj {c d : Char} {l m rest rest' : List Char} (hc : Escapes c l) (hd : Escapes d m)
    (h : l ++ rest = m ++ rest') : c = d ∧ rest = rest' := by
  cases hc with
  | plain hc =>
    cases hd with
    | plain => exact List.cons_eq_cons.mp h
    | escape => exact absurd (List.cons_eq_cons.mp h).1 hc
  | escape hlen hmeaning =>
    cases hd with
    | plain hd => exact absurd (List.cons_eq_cons.mp h).1.symm hd
    | escape hlen' hmeaning' =>
      obtain ⟨rfl, htail⟩ := List.cons_eq_cons.mp (List.cons_eq_cons.mp h).2
      -- the letter is the same, and so is the number of digits
      obtain ⟨rfl, hrest⟩ := List.append_inj htail (hlen.trans hlen'.symm)
      exact ⟨hmeaning.symm.trans hmeaning', hrest⟩

theorem escapes_hexDigits {c letter : Char} (hletter : letter = 'x' ∨ letter = 'u' ∨ letter = 'U')
    (hc : c.toNat < 16 ^ escapeWidth letter) :
    Escapes c ('\\' :: letter :: hexDigits (escapeWidth letter) c.toNat) := by
  have hwidth : 0 < escapeWidth letter ∧ letter ≠ '\n' := by
    rcases hletter with rfl | rfl | rfl <;> decide
  have hmeaning : escapeMeaning letter (hexDigits (escapeWidth letter) c.toNat) = c := by
    calc escapeMeaning letter (hexDigits (escapeWidth letter) c.toNat)
        = Char.ofNat (hexValue (hexDigits (escapeWidth letter) c.toNat)) := by
          rcases hletter with rfl | rfl | rfl <;> rfl
      _ = c := by rw [hexValue_hexDigits, Char.ofNat_toNat]
  exact .escape (length_hexDigits hwidth.1 hc) hmeaning hwidth.2 (newline_not_mem_hexDigits _ _)

theorem escapes_shortEscape {c e : Char} (h : shortEscape? c = some e) : Escapes c ['\\', e] := by
  unfold shortEscape? at h
  split at h <;> cases h <;> exact .escape rfl rfl (by decide) List.not_mem_nil

theorem escapes_escaped (c : Char) : Escapes c (escaped '"' c) := by
  unfold escaped
  split
  · next hmark =>
    simp only [Bool.or_eq_true, decide_eq_true_eq] at hmark
    rcases hmark with rfl | rfl <;> exact .escape rfl rfl (by decide) List.not_mem_nil
  · next hmark =>
    simp only [Bool.or_eq_true, decide_eq_true_eq, not_or] at hmark
    split
    · next hprint =>
      refine .plain hmark.2 ?_
      rintro rfl
      exact absurd hprint (by decide)
    · split
      · next e he => exact escapes_shortEscape he
      · have hchar : c.toNat < 16 ^ 8 := c.val.toNat_lt
        split_ifs with hascii hplane
        · exact escapes_hexDigits (.inl rfl) (Nat.lt_trans hascii (by decide))
        · exact escapes_hexDigits (.inr (.inl rfl)) hplane
        · exact escapes_hexDigits (.inr (.inr rfl)) hchar

theorem flatMap_escaped_injective {cs ds : List Char}
    (h : cs.flatMap (escaped '"') = ds.flatMap (escaped '"')) : cs = ds := by
  induction cs generalizing ds with
  | nil =>
    cases ds with
    | nil => rfl
    | cons d ds => exact absurd (List.append_eq_nil_iff.mp h.symm).1 (escapes_escaped d).ne_nil
  | cons c cs ih =>
    cases ds with
    | nil => exact absurd (List.append_eq_nil_iff.mp h).1 (escapes_escaped c).ne_nil
    | cons d ds =>
      obtain ⟨rfl, hrest⟩ := (escapes_escaped c).append_inj (escapes_escaped d) h
      rw [ih hrest]

/-- **A quoted text is the quoted form of one text only.** -/
theorem quoteText_injective {s t : String} (h : quoteText s = quoteText t) : s = t := by
  unfold quoteText at h
  have hlist := List.tail_eq_of_cons_eq (String.ofList_injective h)
  exact String.toList_inj.mp (flatMap_escaped_injective (List.append_cancel_right hlist))

theorem newline_not_mem_quoteText (s : String) : '\n' ∉ (quoteText s).toList := by
  have hbody : '\n' ∉ s.toList.flatMap (escaped '"') := by
    rw [List.mem_flatMap]
    rintro ⟨c, -, hc⟩
    exact (escapes_escaped c).newline_not_mem hc
  simpa [quoteText] using hbody

/-! ### Numbers and places -/

theorem mem_toString_int {z : Int} {c : Char} (h : c ∈ (toString z).toList) : c = '-' ∨ isAsciiDigit c := by
  rw [Int.toString_eq_repr, Int.repr_eq_if] at h
  split_ifs at h
  · rw [Nat.toList_repr] at h
    exact .inr (isAsciiDigit_of_mem_toDigits h)
  · rw [String.toList_append, Nat.toList_repr, List.mem_append] at h
    rcases h with h | h
    · exact .inl (List.mem_singleton.mp h)
    · exact .inr (isAsciiDigit_of_mem_toDigits h)

theorem not_mem_toString_int {c : Char} (hminus : c ≠ '-') (hdigit : ¬ isAsciiDigit c) (z : Int) :
    c ∉ (toString z).toList := by
  intro h
  rcases mem_toString_int h with h | h
  · exact hminus h
  · exact hdigit h

namespace Pos

/-- What stands in front of the line in a place: the name of the file, if it has one. -/
def fileMark (file : String) : List Char := if file = "" then [] else file.toList ++ [':']

theorem toList_text (p : Pos) :
    p.text.toList = fileMark p.file ++ ((toString p.line).toList ++ ':' :: (toString p.col).toList) := by
  unfold text fileMark
  split_ifs <;> simp

/-- Places in one file are told apart by their texts, and a text ends at the next blank. -/
theorem text_append_inj {p q : Pos} (hfile : p.file = q.file) {rest rest' : List Char}
    (h : p.text.toList ++ ' ' :: rest = q.text.toList ++ ' ' :: rest') : p = q ∧ rest = rest' := by
  simp only [toList_text, hfile, List.append_assoc, List.cons_append] at h
  have hnumbers := List.append_cancel_left h
  have hcolon := not_mem_toString_int (c := ':') (by decide) (by decide)
  have hblank := not_mem_toString_int (c := ' ') (by decide) (by decide)
  obtain ⟨hline, hcols⟩ := append_stop_inj (hcolon p.line) (hcolon q.line) hnumbers
  obtain ⟨hcol, hrest⟩ := append_stop_inj (hblank p.col) (hblank q.col) hcols
  have hint : ∀ {a b : Int}, (toString a).toList = (toString b).toList → a = b :=
    fun hab => Int.repr_injective (String.toList_inj.mp hab)
  have hp : p = q := by
    cases p
    cases q
    rw [Pos.mk.injEq]
    exact ⟨hfile, hint hline, hint hcol⟩
  exact ⟨hp, hrest⟩

theorem text_inj {p q : Pos} (hfile : p.file = q.file) (h : p.text = q.text) : p = q := by
  have happ : p.text.toList ++ [' '] = q.text.toList ++ [' '] := by rw [h]
  exact (text_append_inj hfile happ).1

theorem newline_not_mem_text {p : Pos} (h : '\n' ∉ p.file.toList) : '\n' ∉ p.text.toList := by
  have hint := not_mem_toString_int (c := '\n') (by decide) (by decide)
  have hmark : '\n' ∉ fileMark p.file := by
    unfold fileMark
    split_ifs <;> simp [h]
  simp only [toList_text, List.mem_append, List.mem_cons, not_or]
  exact ⟨hmark, hint p.line, by decide, hint p.col⟩

end Pos

/-! ### The vocabulary -/

namespace TokenKind

theorem spelling_inj {k k' : TokenKind} (hk : k ∈ vocabulary) (hk' : k' ∈ vocabulary)
    (h : k.spelling = k'.spelling) : k = k' :=
  List.inj_on_of_nodup_map (by decide +kernel : (vocabulary.map spelling).Nodup) hk hk' h

theorem not_blank_of_mem_spelling {k : TokenKind} (hk : k ∈ vocabulary) :
    ∀ c ∈ k.spelling.toList, c ≠ ' ' ∧ c ≠ '\n' := by
  have hall : ∀ k ∈ vocabulary, k.spelling.toList.all fun c => c != ' ' && c != '\n' := by decide +kernel
  simpa using hall k hk

theorem newline_not_mem_spelling {k : TokenKind} (hk : k ∈ vocabulary) : '\n' ∉ k.spelling.toList :=
  fun hmem => (not_blank_of_mem_spelling hk _ hmem).2 rfl

/-- Symbols and keywords are words of the vocabulary that carry nothing. -/
theorem mem_vocabulary_of_fixed {k : TokenKind} (h : k ∈ symbols ∨ k ∈ keywords) :
    k ∈ vocabulary ∧ k ≠ .literal ∧ k ≠ .identifier := by
  have hall : ∀ k ∈ symbols ++ keywords, k ∈ vocabulary ∧ k ≠ .literal ∧ k ≠ .identifier := by decide
  exact hall k (List.mem_append.mpr h)

theorem mem_vocabulary_of_prefixOperator {op : TokenKind} (h : op ∈ prefixOperators) : op ∈ vocabulary :=
  (mem_vocabulary_of_fixed (symbol_or_keyword_of_mem h)).1

theorem mem_vocabulary_of_precedence {op : TokenKind} (h : 0 < op.precedence) : op ∈ vocabulary :=
  (mem_vocabulary_of_fixed (.inl (mem_symbols_of_precedence h))).1

end TokenKind

/-! ### Literals -/

theorem Numeral.unique {ds : List Char} {v w : Value} (hv : Numeral ds v) (hw : Numeral ds w) : v = w := by
  obtain ⟨hall, c, cs, rfl, hc⟩ := hv.shape
  have hread := numberValue_eq_ok_iff (v := v) hall ⟨c, rfl, hc⟩
  have hread' := numberValue_eq_ok_iff (v := w) hall ⟨c, rfl, hc⟩
  exact Except.ok.inj ((hread.mpr hv).symm.trans (hread'.mpr hw))

theorem numeral_float {x : Float} (h : (Value.float x).Printable) : Numeral (floatText x).toList (.float x) :=
  numeral_floatText ((lt_infinityPattern_iff x).mpr h)

theorem toString_int_inj {m n : Int64} (h : toString m.toInt = toString n.toInt) : m = n :=
  Int64.toInt_inj.mp (Int.repr_injective h)

theorem floatText_inj {x y : Float} (hx : (Value.float x).Printable) (hy : (Value.float y).Printable)
    (h : floatText x = floatText y) : x = y := by
  have hnum := numeral_float hx
  rw [h] at hnum
  exact Value.float.inj (hnum.unique (numeral_float hy))

/-- Literals of one kind are told apart by their display forms. -/
theorem Value.display_inj {v w : Value} (hv : v.Printable) (hw : w.Printable) (hkind : v.kind = w.kind)
    (h : v.display = w.display) : v = w := by
  cases v with
  | invalid => exact hv.elim
  | int m =>
    cases w with
    | int n => exact congrArg Value.int (toString_int_inj h)
    | _ => simp [kind] at hkind
  | float x =>
    cases w with
    | float y => exact congrArg Value.float (floatText_inj hv hw h)
    | _ => simp [kind] at hkind
  | bool a =>
    cases w with
    | bool b => cases a <;> cases b <;> first | rfl | exact absurd h (by decide)
    | _ => simp [kind] at hkind
  | text s =>
    cases w with
    | text t => exact congrArg Value.text h
    | _ => simp [kind] at hkind

/-- The word in front of the parentheses in a debug form. -/
def Kind.debugWord : Kind → String
  | .int => "Int"
  | .float => "Float"
  | .bool => "Bool"
  | .text => "Text"
  | _ => ""

/-- What stands between the parentheses in a debug form. -/
def Value.debugBody : Value → String
  | .invalid => ""
  | .int n => toString n.toInt
  | .float x => floatText x
  | .bool b => if b then "true" else "false"
  | .text s => quoteText s

theorem Value.toList_debug {v : Value} (h : v.Printable) :
    v.debug.toList = v.kind.debugWord.toList ++ '(' :: (v.debugBody.toList ++ [')']) := by
  cases v with
  | invalid => exact h.elim
  | bool b => cases b <;> rfl
  | _ => simp [debug, debugBody, kind, Kind.debugWord]

theorem Value.kind_mem_all {v : Value} (h : v.Printable) : v.kind ∈ Kind.all := by
  cases v with
  | invalid => exact h.elim
  | _ => simp [kind, Kind.all]

theorem Kind.debugWord_inj {k k' : Kind} (hk : k ∈ all) (hk' : k' ∈ all) (h : k.debugWord = k'.debugWord) :
    k = k' :=
  List.inj_on_of_nodup_map (by decide : (all.map debugWord).Nodup) hk hk' h

theorem Kind.not_mem_debugWord : ∀ k ∈ all, '(' ∉ k.debugWord.toList ∧ '\n' ∉ k.debugWord.toList := by
  decide

theorem Value.debugBody_inj {v w : Value} (hv : v.Printable) (hw : w.Printable) (hkind : v.kind = w.kind)
    (h : v.debugBody = w.debugBody) : v = w := by
  cases v with
  | text s =>
    cases w with
    | text t => exact congrArg Value.text (quoteText_injective h)
    | _ => simp [kind] at hkind
  | bool a =>
    cases w with
    | bool b => cases a <;> cases b <;> first | rfl | exact absurd h (by decide)
    | _ => simp [kind] at hkind
  | invalid => exact hv.elim
  | int m =>
    cases w with
    | int n => exact display_inj hv hw rfl h
    | _ => simp [kind] at hkind
  | float x =>
    cases w with
    | float y => exact display_inj hv hw rfl h
    | _ => simp [kind] at hkind

/-- Literals are told apart by their debug forms. -/
theorem Value.debug_inj {v w : Value} (hv : v.Printable) (hw : w.Printable) (h : v.debug = w.debug) : v = w := by
  have hlist : v.debug.toList = w.debug.toList := by rw [h]
  rw [toList_debug hv, toList_debug hw] at hlist
  have hparen := Kind.not_mem_debugWord
  obtain ⟨hword, hrest⟩ :=
    append_stop_inj (hparen _ (kind_mem_all hv)).1 (hparen _ (kind_mem_all hw)).1 hlist
  have hkind := Kind.debugWord_inj (kind_mem_all hv) (kind_mem_all hw) (String.toList_inj.mp hword)
  exact debugBody_inj hv hw hkind (String.toList_inj.mp (List.append_cancel_right hrest))

theorem Value.newline_not_mem_debug {v : Value} (h : v.Printable) : '\n' ∉ v.debug.toList := by
  have hword := (Kind.not_mem_debugWord _ (kind_mem_all h)).2
  have hbody : '\n' ∉ v.debugBody.toList := by
    cases v with
    | invalid => exact h.elim
    | int n => exact not_mem_toString_int (by decide) (by decide) _
    | float x =>
      intro hmem
      exact absurd ((numeral_float h).shape.1 _ hmem) (by decide)
    | bool b => cases b <;> decide
    | text s => exact newline_not_mem_quoteText s
  rw [toList_debug h]
  simp [hword, hbody]

end Pseudocode
