/-
# What a YAML mapping holds

A mapping has its own keys, and takes in those of other mappings under `<<`, which may do the
same. Its entries (`Node.entries`) are its own ones and behind them all that it takes in, and
its fields are those whose keys have names (`named`); where a name comes more than once, the
first one counts. Aliases are looked through, and a key that is null has no name.

Reading a mapping finds these fields and no others (`fields?_eq`), though it goes about it
with the names seen so far and a bound on its steps.

Key definitions: `Node.entries`, `named`, `Legible`, `Finds`.
Key theorems: `ownFields?_eq`, `mergedFields?_eq`, `fields?_eq`.
-/
import Pseudocode.Proofs.NamedValues
import Pseudocode.Yaml.Decode

namespace Pseudocode.Yaml

/-! ### Fields -/

/-- The node that an alias stands for in the end. -/
def Node.resolved? : Node → Option Node
  | .alias _ (some target) => target.resolved?
  | .alias _ none => none
  | n => some n

/-- The name that a key is: nothing if it is no text, and none if it is null. -/
def Node.name? : Node → Option (Option String)
  | .scalar text isPlain tag? =>
    (scalarValue? text isPlain tag?).map fun (kind, text) => if kind = .null then none else some text
  | .alias _ (some target) => target.name?
  | _ => none

/-- The keys and values that a mapping has itself. -/
def ownEntries (pairs : List (Node × Node)) : List (Node × Node) := pairs.filter (!·.1.isMerge)

mutual

/-- The keys and values of a node: those of a mapping, and behind them those it takes in. -/
def Node.entries : Node → List (Node × Node)
  | .mapping pairs => ownEntries pairs ++ entriesTakenIn pairs
  | .alias _ (some target) => target.entries
  | _ => []

/-- The keys and values that a mapping takes in. -/
def entriesTakenIn : List (Node × Node) → List (Node × Node)
  | [] => []
  | (k, source) :: rest => if k.isMerge then source.sourceEntries else entriesTakenIn rest

/-- The keys and values of what is taken in: a mapping, or several in turn. -/
def Node.sourceEntries : Node → List (Node × Node)
  | .sequence items => entriesOfAll items
  | .mapping pairs => ownEntries pairs ++ entriesTakenIn pairs
  | .alias _ (some target) => target.entries
  | _ => []

/-- The keys and values of several nodes in turn. -/
def entriesOfAll : List Node → List (Node × Node)
  | [] => []
  | n :: ns => n.entries ++ entriesOfAll ns

end

/-- The entries whose keys have names, under these. -/
def named (entries : List (Node × Node)) : List (String × Node) :=
  entries.filterMap fun (k, v) => k.name?.join.map (·, v)

/-- Every key is a text or null. -/
def Legible (entries : List (Node × Node)) : Prop := ∀ entry ∈ entries, entry.1.name?.isSome

theorem named_append (es fs : List (Node × Node)) : named (es ++ fs) = named es ++ named fs := by
  simp [named]

theorem Legible.append {es fs : List (Node × Node)} (hes : Legible es) (hfs : Legible fs) : Legible (es ++ fs) :=
  List.forall_mem_append.mpr ⟨hes, hfs⟩

theorem Node.sourceEntries_eq : ∀ {n : Node}, (∀ items, n ≠ .sequence items) → n.sourceEntries = n.entries
  | .sequence items, h => absurd rfl (h items)
  | .scalar .., _ | .mapping _, _ | .alias _ none, _ | .alias _ (some _), _ => by
    simp only [sourceEntries, entries]

theorem Node.resolved?_of_target? : ∀ {steps : Nat} {n m : Node}, n.target? steps = some m → n.resolved? = some m
  | steps + 1, .alias _ (some target), m, h => by
    rw [target?, Option.bind_some] at h
    rw [resolved?]
    exact resolved?_of_target? h
  | steps + 1, .scalar .., m, h | steps + 1, .sequence _, m, h | steps + 1, .mapping _, m, h => h

theorem Node.entries_of_resolved? : ∀ {n m : Node}, n.resolved? = some m → m.entries = n.entries
  | .alias _ (some target), m, h => by
    rw [resolved?] at h
    rw [entries, entries_of_resolved? h]
  | .scalar .., m, h | .sequence _, m, h | .mapping _, m, h => by
    obtain rfl := Option.some.inj h
    rfl

theorem Node.name?_of_keyText? : ∀ {steps : Nat} {k : Node} {text? : Option String},
    k.keyText? steps = some text? → k.name? = some text?
  | steps + 1, .scalar text isPlain tag?, text?, h => h
  | steps + 1, .alias _ (some target), text?, h => by
    rw [keyText?] at h
    rw [name?]
    exact name?_of_keyText? h

/-- The own fields of a mapping are found as they are, and its keys are legible. -/
theorem ownFields?_eq {steps : Nat} {pairs : List (Node × Node)} {own : List (String × Node)}
    (h : ownFields? steps pairs = some own) :
    Legible (ownEntries pairs) ∧ own = named (ownEntries pairs) := by
  obtain ⟨fields, hfields, h⟩ := Option.bind_eq_some_iff.mp h
  obtain rfl := Option.some.inj h
  have hname : ∀ entry ∈ ownEntries pairs,
      ∃ text?, entry.1.keyText? steps = some text? ∧ entry.1.name? = some text? := by
    intro entry hentry
    obtain ⟨_, hfield⟩ := exists_mapM_eq_some_iff.mp ⟨_, hfields⟩ entry hentry
    obtain ⟨text?, htext, -⟩ := Option.map_eq_some_iff.mp hfield
    exact ⟨text?, htext, Node.name?_of_keyText? htext⟩
  refine ⟨fun entry hentry => ?_, ?_⟩
  · obtain ⟨text?, -, htext⟩ := hname entry hentry
    rw [htext, Option.isSome_some]
  · have hmap : fields.map some =
        ((ownEntries pairs).map fun entry => entry.1.name?.join.map (·, entry.2)).map some := by
      rw [← mapM_eq_some_iff_map.mp hfields, List.map_map]
      refine List.map_congr_left fun entry hentry => ?_
      obtain ⟨text?, hkey, htext⟩ := hname entry hentry
      simp [hkey, htext]
    rw [(List.map_inj_right fun _ _ => Option.some.inj).mp hmap, List.filterMap_map]
    rfl

/-! ### Finding them -/

/-- Of all fields those are found whose names are not seen yet, each name once. -/
structure Finds (seen : List String) (all found : List (String × Node)) : Prop where
  lookup : ∀ name, found.lookup name = if name ∈ seen then none else all.lookup name
  nodup : (found.map Prod.fst).Nodup

theorem Finds.mem_iff {all found : List (String × Node)} (h : Finds [] all found) {name : String} {v : Node} :
    (name, v) ∈ found ↔ all.lookup name = some v := by
  rw [mem_iff_lookup_eq_some h.nodup, h.lookup, if_neg List.not_mem_nil]

theorem Finds.append {seen : List String} {all more found new : List (String × Node)} (h : Finds seen all found)
    (h' : Finds (seen ++ found.map Prod.fst) more new) : Finds seen (all ++ more) (found ++ new) where
  lookup name := by
    rw [List.lookup_append, List.lookup_append, h.lookup, h'.lookup]
    by_cases hseen : name ∈ seen
    · simp [hseen]
    · have hfound : name ∈ found.map Prod.fst ↔ all.lookup name ≠ none := by
        have hlookup := h.lookup name
        rw [if_neg hseen] at hlookup
        rw [← hlookup, ne_eq, lookup_eq_none_iff_notMem, Classical.not_not]
      cases hall : all.lookup name with
      | none => simp [hseen, hfound, hall]
      | some v => simp [hseen]
  nodup := by
    rw [List.map_append, List.nodup_append]
    refine ⟨h.nodup, h'.nodup, ?_⟩
    rintro name hname _ hnew rfl
    have hnone : new.lookup name = none := by
      rw [h'.lookup, if_pos (List.mem_append_right _ hname)]
    exact lookup_eq_none_iff_notMem.mp hnone hnew

/-- A field is taken unless its name is seen or is there already. -/
def keepNew (seen : List String) (kept : List (String × Node)) (field : String × Node) : List (String × Node) :=
  if seen.contains field.1 || kept.any (·.1 == field.1) then kept else kept ++ [(field.1, field.2)]

theorem lookup_keepNew (seen : List String) (kept : List (String × Node)) (field : String × Node) (name : String) :
    (keepNew seen kept field).lookup name =
      (kept.lookup name).or (if name ∈ seen then none else [field].lookup name) := by
  obtain ⟨k, v⟩ := field
  by_cases hk : name = k
  · subst hk
    by_cases hseen : name ∈ seen
    · simp [keepNew, hseen]
    · by_cases hkept : name ∈ kept.map Prod.fst
      · obtain ⟨w, hw⟩ := exists_lookup_eq_some hkept
        have hany : kept.any (·.1 == name) = true := by simpa using hkept
        simp [keepNew, hany, hw]
      · have hany : kept.any (·.1 == name) = false := by
          rw [List.any_eq_false]
          rintro p hp hname
          exact hkept (List.mem_map.mpr ⟨p, hp, by simpa using hname⟩)
        simp [keepNew, hseen, hany, List.lookup_append]
  · have hother : [(k, v)].lookup name = none := by simp [hk]
    rw [keepNew, hother]
    split <;> simp [List.lookup_append, hother]

theorem nodup_keepNew (seen : List String) {kept : List (String × Node)} (h : (kept.map Prod.fst).Nodup)
    (field : String × Node) : ((keepNew seen kept field).map Prod.fst).Nodup := by
  rw [keepNew]
  split
  · exact h
  · next hnew =>
    simp only [Bool.or_eq_true, not_or, Bool.not_eq_true, List.any_eq_false, beq_iff_eq] at hnew
    rw [List.map_append, List.nodup_append]
    refine ⟨h, by simp, ?_⟩
    simp only [List.mem_map]
    rintro _ ⟨p, hp, rfl⟩ _ ⟨_, hfield, rfl⟩
    obtain rfl := List.mem_singleton.mp hfield
    exact hnew.2 p hp

theorem finds_foldl_keepNew (seen : List String) : ∀ (own kept all : List (String × Node)), Finds seen all kept →
    Finds seen (all ++ own) (own.foldl (keepNew seen) kept)
  | [], kept, all, h => by simpa using h
  | field :: own, kept, all, h => by
    have hstep : Finds seen (all ++ [field]) (keepNew seen kept field) := by
      refine ⟨fun name => ?_, nodup_keepNew seen h.nodup field⟩
      rw [lookup_keepNew, h.lookup, List.lookup_append]
      split <;> rfl
    have hrest := finds_foldl_keepNew seen own _ _ hstep
    rwa [List.append_assoc, List.singleton_append] at hrest

/-! ### Reading finds them -/

theorem find?_isMerge_eq_none {pairs : List (Node × Node)} (h : (pairs.find? fun (k, _) => k.isMerge) = none) :
    entriesTakenIn pairs = [] := by
  induction pairs with
  | nil => rw [entriesTakenIn]
  | cons pair pairs ih =>
    obtain ⟨k, v⟩ := pair
    rw [List.find?_cons] at h
    cases hk : k.isMerge with
    | true => simp [hk] at h
    | false =>
      rw [entriesTakenIn, hk]
      exact ih (by simpa [hk] using h)

theorem find?_isMerge_eq_some {pairs : List (Node × Node)} {k source : Node}
    (h : (pairs.find? fun (k, _) => k.isMerge) = some (k, source)) :
    entriesTakenIn pairs = source.sourceEntries := by
  induction pairs with
  | nil => simp at h
  | cons pair pairs ih =>
    obtain ⟨k', v⟩ := pair
    rw [List.find?_cons] at h
    cases hk : k'.isMerge with
    | true =>
      simp only [hk, Option.some.injEq, Prod.mk.injEq] at h
      rw [entriesTakenIn, hk, if_pos rfl, h.2]
    | false =>
      rw [entriesTakenIn, hk]
      exact ih (by simpa [hk] using h)

theorem finds_refl {own : List (String × Node)} (h : (own.map Prod.fst).Nodup) : Finds [] own own :=
  ⟨fun _ => by simp, h⟩

/-- Entries are read: their keys are legible, and their fields are found. -/
structure Read (seen : List String) (entries : List (Node × Node)) (found : List (String × Node)) : Prop where
  legible : Legible entries
  finds : Finds seen (named entries) found

theorem Read.append {seen : List String} {es fs : List (Node × Node)} {found more : List (String × Node)}
    (h : Read seen es found) (h' : Read (seen ++ found.map Prod.fst) fs more) :
    Read seen (es ++ fs) (found ++ more) where
  legible := h.legible.append h'.legible
  finds := by
    rw [named_append]
    exact h.finds.append h'.finds

mutual

theorem mergedFields?_eq : ∀ {steps : Nat} {seen : List String} {n : Node} {fs : List (String × Node)},
    mergedFields? steps seen n = some fs → Read seen n.entries fs
  | steps + 1, seen, n, fs, h => by
    rw [mergedFields?] at h
    split at h
    case h_2 => cases h
    case h_1 pairs htarget =>
      rw [← Node.entries_of_resolved? (Node.resolved?_of_target? htarget), Node.entries]
      simp only [Option.bind_eq_bind] at h
      split at h
      case isTrue => cases h
      obtain ⟨own, hown, h⟩ := Option.bind_eq_some_iff.mp h
      obtain ⟨hlegible, rfl⟩ := ownFields?_eq hown
      have hnew : Read seen (ownEntries pairs) ((named (ownEntries pairs)).foldl (keepNew seen) []) :=
        ⟨hlegible, finds_foldl_keepNew seen _ [] [] ⟨by simp, by simp⟩⟩
      split at h
      case h_1 hmerge =>
        rw [find?_isMerge_eq_none hmerge, List.append_nil]
        obtain rfl := Option.some.inj h
        exact hnew
      case h_2 source hmerge =>
        rw [find?_isMerge_eq_some hmerge]
        obtain ⟨more, hmore, h⟩ := Option.bind_eq_some_iff.mp h
        obtain rfl := Option.some.inj h
        exact hnew.append (takenIn?_eq hmore)

theorem takenIn?_eq : ∀ {steps : Nat} {seen : List String} {n : Node} {fs : List (String × Node)},
    takenIn? steps seen n = some fs → Read seen n.sourceEntries fs
  | steps + 1, seen, .sequence items, fs, h => by
    rw [takenIn?] at h
    rw [Node.sourceEntries]
    exact allTakenIn?_eq h
  | steps + 1, seen, .scalar .., fs, h | steps + 1, seen, .mapping _, fs, h
  | steps + 1, seen, .alias .., fs, h => by
    rw [takenIn?] at h
    · rw [Node.sourceEntries_eq (by simp)]
      exact mergedFields?_eq h
    · simp

theorem allTakenIn?_eq : ∀ {steps : Nat} {seen : List String} {ns : List Node} {fs : List (String × Node)},
    allTakenIn? steps seen ns = some fs → Read seen (entriesOfAll ns) fs
  | steps + 1, seen, [], fs, h => by
    obtain rfl := Option.some.inj h
    rw [entriesOfAll]
    exact ⟨by simp [Legible], ⟨by simp [named], by simp⟩⟩
  | steps + 1, seen, n :: ns, fs, h => by
    simp only [allTakenIn?, Option.bind_eq_bind, Option.bind_eq_some_iff] at h
    obtain ⟨found, hfound, more, hmore, h⟩ := h
    obtain rfl := Option.some.inj h
    rw [entriesOfAll]
    exact (mergedFields?_eq hfound).append (allTakenIn?_eq hmore)

end

/-- **The fields of a mapping are found, each under its name.** -/
theorem fields?_eq {steps : Nat} {pairs : List (Node × Node)} {fs : List (String × Node)}
    (h : fields? steps pairs = some fs) : Read [] (Node.mapping pairs).entries fs := by
  simp only [fields?, Option.bind_eq_bind, Option.bind_eq_some_iff] at h
  obtain ⟨own, hown, h⟩ := h
  obtain ⟨hlegible, rfl⟩ := ownFields?_eq hown
  split at h
  case isTrue => cases h
  next hdistinct =>
  have hnodup : ((named (ownEntries pairs)).map Prod.fst).Nodup := by
    simp only [Bool.or_eq_true, not_or, Bool.not_eq_true', Bool.not_eq_false] at hdistinct
    exact of_decide_eq_true hdistinct.2
  have hread : Read [] (ownEntries pairs) (named (ownEntries pairs)) :=
    ⟨hlegible, finds_refl hnodup⟩
  rw [Node.entries]
  split at h
  case h_1 hmerge =>
    rw [find?_isMerge_eq_none hmerge, List.append_nil]
    obtain rfl := Option.some.inj h
    exact hread
  case h_2 source hmerge =>
    rw [find?_isMerge_eq_some hmerge]
    obtain ⟨more, hmore, h⟩ := Option.bind_eq_some_iff.mp h
    obtain rfl := Option.some.inj h
    exact hread.append (takenIn?_eq hmore)

end Pseudocode.Yaml
