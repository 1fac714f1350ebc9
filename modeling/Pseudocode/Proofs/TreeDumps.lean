/-
# Dumps of a tree determine it

A tree that was parsed is dumped as an outline or as a document. Neither dump loses
anything: of the trees parsed from sources of one name, no two have the same outline or
the same document (`dumps_determine_tree`).

An outline has no brackets. What tells where an operand ends is that its lines are told
apart from what follows them, whatever follows: from the outline of a tree at a depth and
any text behind it, both the tree and the text are determined
(`Expr.outlineAt_append_inj`). The first line of a node gives what the node is, where it
is and what it holds (`nodeLine_inj`); its operands follow at depths that it gives. The
name of the source may hold blanks, newlines or what looks like a label, since it is the
same in all places of both trees (`inFile_of_parseSource`).

Key definitions: `Expr.InFile`, `nodeLine`.
Key theorems: `inFile_of_parseSource`, `nodeLine_inj`, `Expr.outlineAt_append_inj`,
`Expr.toDoc_inj`, `dumps_determine_tree`.
-/
import Pseudocode.Doc
import Pseudocode.Expr.Outline
import Pseudocode.Proofs.FaithfulForms
import Pseudocode.Proofs.RunReport

namespace Pseudocode

/-! ### Places of parsed trees -/

/-- All nodes of the tree stand in the file. -/
def Expr.InFile (file : String) : Expr → Prop
  | .lit p _ => p.file = file
  | .unary p _ x => p.file = file ∧ x.InFile file
  | .binary p _ x y => p.file = file ∧ x.InFile file ∧ y.InFile file
  | .hole => True
  | .foreign _ => True

/-- A phrase of tokens in a file derives a tree in it. -/
theorem Derives.inFile {file : String} {n : Nonterminal} {u : List Token} {x : Expr} (d : Derives n u x)
    (h : ∀ t ∈ u, t.pos.file = file) : x.InFile file := by
  induction d with
  | tighter _ _ ih => exact ih h
  | operation _ _ _ ihx ihy =>
    exact ⟨h _ (by simp), ihx fun t hu => h t (by simp [hu]), ihy fun t hv => h t (by simp [hv])⟩
  | prefixed _ _ ih => exact ⟨h _ (by simp), ih fun t hu => h t (by simp [hu])⟩
  | literal _ => exact h _ (by simp)
  | parens _ _ _ ih => exact ih fun t hu => h t (by simp [hu])

theorem inFile_of_parseSource {file src : String} {t : Expr} (h : parseSource file src = .ok t) :
    t.InFile file := by
  obtain ⟨ts, hscan, hparse⟩ := parseSource_eq_ok_iff.mp h
  obtain ⟨m, u, n, stop, rfl, -, d, -, -⟩ := (parseTokens_eq_ok_iff (terminated_of_scan hscan)).mp hparse
  apply d.inFile
  intro t ht
  exact ((scan_places file src).1 _ hscan t (by simp [ht])).file_eq

/-! ### Outlines -/

/-- The text of an outline from a node on: the line of the node and what follows it. -/
def nodeLine (depth : Nat) (word : String) (p : Pos) (held : String) (rest : List Char) : List Char :=
  List.replicate (2 * depth) ' ' ++ (word.toList ++ ' ' :: (p.text.toList ++ ' ' :: (held.toList ++ '\n' :: rest)))

/-- The line of a node gives its word, its place and what it holds, and where it ends. -/
theorem nodeLine_inj {depth : Nat} {word word' : String} {p q : Pos} {held held' : String} {rest rest' : List Char}
    (hword : ' ' ∉ word.toList) (hword' : ' ' ∉ word'.toList) (hfile : p.file = q.file)
    (hheld : '\n' ∉ held.toList) (hheld' : '\n' ∉ held'.toList)
    (h : nodeLine depth word p held rest = nodeLine depth word' q held' rest') :
    word = word' ∧ p = q ∧ held = held' ∧ rest = rest' := by
  unfold nodeLine at h
  obtain ⟨hw, hplace⟩ := append_stop_inj hword hword' (List.append_cancel_left h)
  obtain ⟨hp, hline⟩ := Pos.text_append_inj hfile hplace
  obtain ⟨hs, hrest⟩ := append_stop_inj hheld hheld' hline
  exact ⟨String.toList_inj.mp hw, hp, String.toList_inj.mp hs, hrest⟩

namespace Expr

open TokenKind (mem_vocabulary_of_prefixOperator mem_vocabulary_of_precedence)

/-- The word for a node in an outline. -/
def word : Expr → String
  | lit _ _ => "BasicLit"
  | unary _ _ _ => "UnaryOp"
  | binary _ _ _ _ => "BinaryOp"
  | hole => ""
  | foreign _ => ""

/-- What a node holds besides its operands, as text. -/
def held : Expr → String
  | lit _ v => v.debug
  | unary _ op _ => op.spelling
  | binary _ op _ _ => op.spelling
  | hole => ""
  | foreign _ => ""

/-- The text below the line of a node: its operands, and what follows the outline. -/
def operandText (depth : Nat) : Expr → List Char → List Char
  | unary _ _ x, rest => (x.outlineAt (depth + 1)).toList ++ rest
  | binary _ _ x y, rest =>
    (outlineLine (depth + 1) "X:").toList ++ ((x.outlineAt (depth + 2)).toList ++
      ((outlineLine (depth + 1) "Y:").toList ++ ((y.outlineAt (depth + 2)).toList ++ rest)))
  | _, rest => rest

theorem outlineAt_append {t : Expr} (h : t.Printable) (depth : Nat) (rest : List Char) :
    (t.outlineAt depth).toList ++ rest = nodeLine depth t.word t.pos t.held (t.operandText depth rest) := by
  cases t with
  | hole => exact h.elim
  | foreign => exact h.elim
  | _ => simp [outlineAt, outlineLine, nodeLine, word, held, operandText, pos]

theorem blank_not_mem_word (t : Expr) : ' ' ∉ t.word.toList := by
  cases t <;> simp [word]

theorem newline_not_mem_held {t : Expr} (h : t.Printable) : '\n' ∉ t.held.toList := by
  cases t with
  | lit => exact Value.newline_not_mem_debug h
  | unary => exact TokenKind.newline_not_mem_spelling (mem_vocabulary_of_prefixOperator h.1)
  | binary => exact TokenKind.newline_not_mem_spelling (mem_vocabulary_of_precedence h.1)
  | hole => exact h.elim
  | foreign => exact h.elim

theorem InFile.file_pos {file : String} {t : Expr} (h : t.InFile file) (ht : t.Printable) : t.pos.file = file := by
  cases t with
  | lit => exact h
  | unary => exact h.1
  | binary => exact h.1
  | hole => exact ht.elim
  | foreign => exact ht.elim

/-- Equal outlines, each with a text behind it, agree at their first node. -/
theorem node_eq_of_outlineAt_eq {file : String} {t t' : Expr} (ht : t.Printable) (hfile : t.InFile file)
    (ht' : t'.Printable) (hfile' : t'.InFile file) {depth : Nat} {rest rest' : List Char}
    (h : (t.outlineAt depth).toList ++ rest = (t'.outlineAt depth).toList ++ rest') :
    t.word = t'.word ∧ t.pos = t'.pos ∧ t.held = t'.held ∧
      t.operandText depth rest = t'.operandText depth rest' := by
  rw [outlineAt_append ht, outlineAt_append ht'] at h
  have hplace : t.pos.file = t'.pos.file := (hfile.file_pos ht).trans (hfile'.file_pos ht').symm
  exact nodeLine_inj t.blank_not_mem_word t'.blank_not_mem_word hplace (newline_not_mem_held ht)
    (newline_not_mem_held ht') h

/-- **An outline ends in one place and is that of one tree.** The induction is on the
tree, for any text behind its outline: the operands of a binary operator have text behind
them in turn. -/
theorem outlineAt_append_inj {file : String} {t : Expr} (ht : t.Printable) (hfile : t.InFile file) :
    ∀ {t' : Expr} {depth : Nat} {rest rest' : List Char}, t'.Printable → t'.InFile file →
      (t.outlineAt depth).toList ++ rest = (t'.outlineAt depth).toList ++ rest' → t = t' ∧ rest = rest' := by
  induction t with
  | lit p v =>
    intro t' depth rest rest' ht' hfile' h
    obtain ⟨hword, hpos, hheld, htext⟩ := node_eq_of_outlineAt_eq ht hfile ht' hfile' h
    cases t' with
    | lit q w =>
      obtain rfl : p = q := hpos
      exact ⟨by rw [Value.debug_inj ht ht' hheld], htext⟩
    | _ => simp [word] at hword
  | unary p op x ih =>
    intro t' depth rest rest' ht' hfile' h
    obtain ⟨hword, hpos, hheld, htext⟩ := node_eq_of_outlineAt_eq ht hfile ht' hfile' h
    cases t' with
    | unary q op' x' =>
      obtain rfl : p = q := hpos
      have hop := TokenKind.spelling_inj (mem_vocabulary_of_prefixOperator ht.1)
        (mem_vocabulary_of_prefixOperator ht'.1) hheld
      obtain ⟨hx, hrest⟩ := ih ht.2 hfile.2 ht'.2 hfile'.2 htext
      exact ⟨by rw [hop, hx], hrest⟩
    | _ => simp [word] at hword
  | binary p op x y ihx ihy =>
    intro t' depth rest rest' ht' hfile' h
    obtain ⟨hword, hpos, hheld, htext⟩ := node_eq_of_outlineAt_eq ht hfile ht' hfile' h
    cases t' with
    | binary q op' x' y' =>
      obtain rfl : p = q := hpos
      have hop := TokenKind.spelling_inj (mem_vocabulary_of_precedence ht.1)
        (mem_vocabulary_of_precedence ht'.1) hheld
      -- the labels are the same on both sides, and what is behind the first operand is the second
      obtain ⟨hx, hsecond⟩ := ihx ht.2.1 hfile.2.1 ht'.2.1 hfile'.2.1 (List.append_cancel_left htext)
      obtain ⟨hy, hrest⟩ := ihy ht.2.2 hfile.2.2 ht'.2.2 hfile'.2.2 (List.append_cancel_left hsecond)
      exact ⟨by rw [hop, hx, hy], hrest⟩
    | _ => simp [word] at hword
  | hole => exact ht.elim
  | foreign => exact ht.elim

theorem outline_inj {file : String} {t t' : Expr} (ht : t.Printable) (hfile : t.InFile file)
    (ht' : t'.Printable) (hfile' : t'.InFile file) (h : t.outline = t'.outline) : t = t' := by
  have happ : (t.outlineAt 0).toList ++ [] = (t'.outlineAt 0).toList ++ [] := by
    unfold outline at h
    rw [h]
  exact (outlineAt_append_inj ht hfile ht' hfile' happ).1

/-! ### Documents -/

theorem kind_name_inj {v w : Value} (hv : v.Printable) (hw : w.Printable) (h : v.kind.name = w.kind.name) :
    v.kind = w.kind :=
  List.inj_on_of_nodup_map (by decide : (Kind.all.map Kind.name).Nodup) (Value.kind_mem_all hv)
    (Value.kind_mem_all hw) h

/-- **A document is that of one tree.** -/
theorem toDoc_inj {file : String} {t : Expr} (ht : t.Printable) (hfile : t.InFile file) :
    ∀ {t' : Expr}, t'.Printable → t'.InFile file → t.toDoc = t'.toDoc → t = t' := by
  induction t with
  | lit p v =>
    intro t' ht' hfile' h
    cases t' with
    | lit q w =>
      simp only [toDoc, Doc.record.injEq, Doc.text.injEq, List.cons.injEq, Prod.mk.injEq, true_and, and_true] at h
      obtain ⟨hkind, hplace, hvalue⟩ := h
      have hp : p = q := Pos.text_inj (hfile.trans hfile'.symm) hplace
      have hv : v = w := Value.display_inj ht ht' (kind_name_inj ht ht' hkind) hvalue
      rw [hp, hv]
    | _ => simp [toDoc] at h
  | unary p op x ih =>
    intro t' ht' hfile' h
    cases t' with
    | unary q op' x' =>
      simp only [toDoc, Doc.record.injEq, Doc.text.injEq, List.cons.injEq, Prod.mk.injEq, true_and, and_true] at h
      obtain ⟨hspelling, hplace, hdoc⟩ := h
      have hp : p = q := Pos.text_inj (hfile.1.trans hfile'.1.symm) hplace
      have hop : op = op' := TokenKind.spelling_inj (mem_vocabulary_of_prefixOperator ht.1)
        (mem_vocabulary_of_prefixOperator ht'.1) hspelling
      rw [hp, hop, ih ht.2 hfile.2 ht'.2 hfile'.2 hdoc]
    | _ => simp [toDoc] at h
  | binary p op x y ihx ihy =>
    intro t' ht' hfile' h
    cases t' with
    | binary q op' x' y' =>
      simp only [toDoc, Doc.record.injEq, Doc.text.injEq, List.cons.injEq, Prod.mk.injEq, true_and, and_true] at h
      obtain ⟨hspelling, hplace, hleft, hright⟩ := h
      have hp : p = q := Pos.text_inj (hfile.1.trans hfile'.1.symm) hplace
      have hop : op = op' := TokenKind.spelling_inj (mem_vocabulary_of_precedence ht.1)
        (mem_vocabulary_of_precedence ht'.1) hspelling
      rw [hp, hop, ihx ht.2.1 hfile.2.1 ht'.2.1 hfile'.2.1 hleft, ihy ht.2.2 hfile.2.2 ht'.2.2 hfile'.2.2 hright]
    | _ => simp [toDoc] at h
  | hole => exact ht.elim
  | foreign => exact ht.elim

end Expr

/-- **Dumps of a tree lose nothing.** Two trees that were parsed under one name have the
same outline exactly if they have the same document, and exactly if they are the same tree,
with the same operators, literals and places. -/
theorem dumps_determine_tree {file src src' : String} {t t' : Expr} (h : parseSource file src = .ok t)
    (h' : parseSource file src' = .ok t') :
    (t.outline = t'.outline ↔ t.toDoc = t'.toDoc) ∧ (t.toDoc = t'.toDoc ↔ t = t') := by
  have ht := printable_of_parseSource h
  have ht' := printable_of_parseSource h'
  have hfile := inFile_of_parseSource h
  have hfile' := inFile_of_parseSource h'
  have houtline : t.outline = t'.outline ↔ t = t' :=
    ⟨Expr.outline_inj ht hfile ht' hfile', fun heq => by rw [heq]⟩
  have hdoc : t.toDoc = t'.toDoc ↔ t = t' :=
    ⟨Expr.toDoc_inj ht hfile ht' hfile', fun heq => by rw [heq]⟩
  exact ⟨houtline.trans hdoc.symm, hdoc⟩

/-- A text of two lines, the second like a label of an outline. -/
def lineBreakTree : Expr := .lit {} (.text "a\n  X:")

/-- The same text with a backslash and a letter for the newline. -/
def backslashTree : Expr := .lit {} (.text "a\\n  X:")

theorem lineBreakTree_dumps_differ : ∃ t t', parseSource "in 1:1\nX:" lineBreakTree.source = .ok t ∧
    parseSource "in 1:1\nX:" backslashTree.source = .ok t' ∧ t.outline ≠ t'.outline ∧ t.toDoc ≠ t'.toDoc := by
  obtain ⟨t, hparse, htree⟩ := exists_parseSource_source (t := lineBreakTree) "in 1:1\nX:" trivial
  obtain ⟨t', hparse', htree'⟩ := exists_parseSource_source (t := backslashTree) "in 1:1\nX:" trivial
  obtain ⟨houtline, hdoc⟩ := dumps_determine_tree hparse hparse'
  have hne : t ≠ t' := by
    rintro rfl
    rw [htree] at htree'
    simp [lineBreakTree, backslashTree, Expr.unplaced] at htree'
  exact ⟨t, t', hparse, hparse', fun h => hne (hdoc.mp (houtline.mp h)), fun h => hne (hdoc.mp h)⟩

end Pseudocode
