/-
# Failures in their wrapping

A failure is a leaf in layers (`exists_wrapped`): an error of one of the three stages or a
mere message, and around it any number of contexts and marks of a stage, in any order. Five
questions are put to it, and each of them searches the chain on its own. A search for
something that no layer is goes through to the leaf (`first?_wrapped`), so that whether an
entry goes on, where the failure happened and whether it is one of evaluation are what the
leaf alone says. A search for a mark stops at the first one (`stage?_wrapped`). The parts of the
chain are the same leaf in fewer layers (`chain_wrapped`), so that all the marks of a chain name
one place.

Key definitions: `Layer`, `Leaf`, `Leaf.wrapped`.
Key theorems: `exists_wrapped`, `chain_wrapped`, `first?_wrapped`, `stage?_wrapped`,
`classification_ignores_wrapping`.
-/
import Mathlib.Data.List.Infix
import Pseudocode.Session.Continuation

namespace Pseudocode

/-! ### Layers around a leaf -/

/-- What is put around a failure at one time. -/
inductive Layer where
  /-- A message in front. -/
  | context (message : String)
  /-- The mark of a stage. -/
  | mark (stage : Stage)
deriving Repr, DecidableEq

namespace Layer

/-- A failure in one more layer. -/
def wrap : Layer → Failure → Failure
  | context message => .context message
  | mark stage => .staged stage

/-- The stage that the layer marks, if it is a mark. -/
def stage? : Layer → Option Stage
  | context _ => none
  | mark stage => some stage

end Layer

/-- A failure without any wrapping. -/
inductive Leaf where
  | scan (e : ScanError)
  | parse (e : ParseError)
  | runtime (e : RuntimeError)
  | plain (message : String)
deriving Repr

namespace Leaf

/-- The leaf alone. -/
def failure : Leaf → Failure
  | scan e => .scan e
  | parse e => .parse e
  | runtime e => .runtime e
  | plain message => .plain message

/-- The place that the leaf itself names; a mere message names none. -/
def pos : Leaf → Pos
  | scan e => e.pos
  | parse e => e.pos
  | runtime e => e.pos
  | plain _ => { file := "", line := 0, col := 0 }

/-- The leaf in layers, the first of which is the outermost. -/
def wrapped (leaf : Leaf) (layers : List Layer) : Failure := layers.foldr Layer.wrap leaf.failure

end Leaf

theorem exists_wrapped (f : Failure) : ∃ (leaf : Leaf) (layers : List Layer), f = leaf.wrapped layers := by
  induction f with
  | scan e => exact ⟨.scan e, [], rfl⟩
  | parse e => exact ⟨.parse e, [], rfl⟩
  | runtime e => exact ⟨.runtime e, [], rfl⟩
  | plain message => exact ⟨.plain message, [], rfl⟩
  | context message _ ih =>
    obtain ⟨leaf, layers, rfl⟩ := ih
    exact ⟨leaf, .context message :: layers, rfl⟩
  | staged stage _ ih =>
    obtain ⟨leaf, layers, rfl⟩ := ih
    exact ⟨leaf, .mark stage :: layers, rfl⟩

theorem root_wrapped (leaf : Leaf) (layers : List Layer) : (leaf.wrapped layers).root = leaf.failure := by
  induction layers with
  | nil => cases leaf <;> rfl
  | cons layer layers ih => cases layer <;> exact ih

/-! ### Searches along the chain -/

theorem chain_failure (leaf : Leaf) : leaf.failure.chain = [leaf.failure] := by
  cases leaf <;> rfl

theorem chain_wrap (layer : Layer) (f : Failure) : (layer.wrap f).chain = layer.wrap f :: f.chain := by
  cases layer <;> rfl

/-- The chain takes off one layer after the other. -/
theorem chain_wrapped (leaf : Leaf) (layers : List Layer) :
    (leaf.wrapped layers).chain = layers.tails.map leaf.wrapped := by
  induction layers with
  | nil => exact chain_failure leaf
  | cons layer layers ih =>
    rw [List.tails_cons, List.map_cons, ← ih]
    exact chain_wrap layer _

section

variable {α : Type} {select : Failure → Option α}

theorem first?_wrap (layer : Layer) (f : Failure) :
    (layer.wrap f).first? select = (select (layer.wrap f)).or (f.first? select) := by
  unfold Failure.first?
  rw [chain_wrap, List.findSome?_cons]
  cases select (layer.wrap f) <;> rfl

/-- A search that picks no layer ends at the leaf. -/
theorem first?_wrapped (hselect : ∀ layer f, select (Layer.wrap layer f) = none) (leaf : Leaf)
    (layers : List Layer) : (leaf.wrapped layers).first? select = leaf.failure.first? select := by
  induction layers with
  | nil => rfl
  | cons layer layers ih =>
    calc (leaf.wrapped (layer :: layers)).first? select
        = (select (layer.wrap (leaf.wrapped layers))).or ((leaf.wrapped layers).first? select) :=
          first?_wrap layer _
      _ = (leaf.wrapped layers).first? select := by rw [hselect, Option.none_or]
      _ = leaf.failure.first? select := ih

end

/-- A search for a mark ends at the outermost one. -/
theorem stage?_wrapped (leaf : Leaf) (layers : List Layer) :
    (leaf.wrapped layers).stage? = (layers.filterMap Layer.stage?).head? := by
  induction layers with
  | nil => cases leaf <;> rfl
  | cons layer layers ih =>
    -- Both sides pass over a context and answer at a mark, by computation.
    cases layer with
    | context message => exact ih
    | mark stage => rfl

/-! ### What the leaf decides -/

section

variable (leaf : Leaf) (layers : List Layer)

theorem scanError?_wrapped : (leaf.wrapped layers).scanError? = leaf.failure.scanError? :=
  first?_wrapped (fun layer _ => by cases layer <;> rfl) leaf layers

theorem parseError?_wrapped : (leaf.wrapped layers).parseError? = leaf.failure.parseError? :=
  first?_wrapped (fun layer _ => by cases layer <;> rfl) leaf layers

theorem runtimeError?_wrapped : (leaf.wrapped layers).runtimeError? = leaf.failure.runtimeError? :=
  first?_wrapped (fun layer _ => by cases layer <;> rfl) leaf layers

theorem continuation_wrapped : continuation (leaf.wrapped layers) = continuation leaf.failure := by
  unfold continuation
  rw [scanError?_wrapped, parseError?_wrapped]

theorem pos_failure : leaf.failure.pos = leaf.pos := by
  cases leaf <;> rfl

theorem pos_wrapped : (leaf.wrapped layers).pos = leaf.pos := by
  rw [← pos_failure]
  unfold Failure.pos
  rw [scanError?_wrapped, parseError?_wrapped, runtimeError?_wrapped]

theorem pos_of_mem_chain {f : Failure} (hf : f ∈ (leaf.wrapped layers).chain) : f.pos = leaf.pos := by
  rw [chain_wrapped] at hf
  obtain ⟨inner, -, rfl⟩ := List.mem_map.mp hf
  exact pos_wrapped leaf inner

end

/-- **What a failure is taken for does not depend on its wrapping.** Whatever layers there
are around a leaf, and in whatever order: an entry goes on as for the leaf alone, all marks
of a stage in the chain name the place of the leaf, the stage is that of the outermost mark, and a
division by zero or a mismatch of kinds is one exactly where the leaf is. -/
theorem classification_ignores_wrapping (leaf : Leaf) (layers : List Layer) :
    continuation (leaf.wrapped layers) = continuation leaf.failure ∧
    (∀ stage inner, Failure.staged stage inner ∈ (leaf.wrapped layers).chain →
      (Failure.staged stage inner).pos = leaf.pos) ∧
    (leaf.wrapped layers).stage? = (layers.filterMap Layer.stage?).head? ∧
    (leaf.wrapped layers).isDivisionByZero = leaf.failure.isDivisionByZero ∧
    (leaf.wrapped layers).isMismatch = leaf.failure.isMismatch := by
  refine ⟨continuation_wrapped leaf layers, fun _ _ => pos_of_mem_chain leaf layers, stage?_wrapped leaf layers,
    ?_, ?_⟩
  · unfold Failure.isDivisionByZero
    rw [runtimeError?_wrapped]
  · unfold Failure.isMismatch
    rw [runtimeError?_wrapped]

/-- A text that is not closed. -/
def unclosedLeaf : Leaf := .scan { fault := .unexpectedEnd, pos := ⟨"in", 1, 5⟩, codePoint := 39 }

/-- Two marks, each behind a message. -/
def twoMarks : List Layer := [.context "failed", .mark .parser, .context "at first", .mark .scanner]

theorem unclosedLeaf_in_twoMarks :
    continuation (unclosedLeaf.wrapped twoMarks) = { separator := "\n", more := true } ∧
    (Failure.staged .scanner unclosedLeaf.failure ∈ (unclosedLeaf.wrapped twoMarks).chain ∧
      (Failure.staged .scanner unclosedLeaf.failure).pos = ⟨"in", 1, 5⟩) ∧
    (unclosedLeaf.wrapped twoMarks).stage? = some .parser := by
  obtain ⟨hcontinued, hplace, hstage, -⟩ := classification_ignores_wrapping unclosedLeaf twoMarks
  have hmem : Failure.staged .scanner unclosedLeaf.failure ∈ (unclosedLeaf.wrapped twoMarks).chain := by
    rw [chain_wrapped]
    exact List.mem_map.mpr ⟨[.mark .scanner], by simp [twoMarks], rfl⟩
  exact ⟨hcontinued, ⟨hmem, hplace _ _ hmem⟩, hstage⟩

end Pseudocode
