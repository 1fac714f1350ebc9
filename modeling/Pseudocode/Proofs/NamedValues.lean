/-
# Values under names

A table is a list of names with what stands under them, and the first one of a name counts.
Where no name comes twice, looking a name up finds each entry of the list
(`mem_iff_lookup_eq_some`). A table is read entry by entry, and is read as a whole only if
each entry can be (`mapM_eq_some_iff_map`).

Key theorems: `lookup_eq_none_iff_notMem`, `mem_iff_lookup_eq_some`, `mapM_eq_some_iff_map`.
-/

namespace Pseudocode

/-! ### Looking up -/

theorem lookup_eq_none_iff_notMem {α : Type} {l : List (String × α)} {name : String} :
    l.lookup name = none ↔ name ∉ l.map Prod.fst := by
  rw [List.lookup_eq_none_iff]
  constructor
  · intro h hmem
    obtain ⟨p, hp, rfl⟩ := List.mem_map.mp hmem
    simpa using h p hp
  · intro h p hp
    simp only [bne_iff_ne, ne_eq]
    rintro rfl
    exact h (List.mem_map_of_mem hp)

theorem exists_lookup_eq_some {α : Type} {l : List (String × α)} {name : String} (h : name ∈ l.map Prod.fst) :
    ∃ v, l.lookup name = some v :=
  Option.ne_none_iff_exists'.mp (mt lookup_eq_none_iff_notMem.mp (not_not_intro h))

/-- Where no name comes twice, the entries of a table are what can be looked up in it. -/
theorem mem_iff_lookup_eq_some {α : Type} {name : String} {v : α} : ∀ {l : List (String × α)},
    (l.map Prod.fst).Nodup → ((name, v) ∈ l ↔ l.lookup name = some v)
  | [], _ => by simp
  | (k, w) :: l, h => by
    rw [List.map_cons, List.nodup_cons] at h
    by_cases hk : name = k
    · subst hk
      have hout : (name, v) ∉ l := fun hmem => h.1 (List.mem_map.mpr ⟨_, hmem, rfl⟩)
      simp [hout, eq_comm]
    · have hbeq : (name == k) = false := by simpa using hk
      simp [hk, mem_iff_lookup_eq_some h.2, List.lookup_cons, hbeq]

/-- The entries whose names mean something. -/
theorem mem_filterMap_named {α β : Type} {meaning? : String → Option β} {l : List (String × α)} {x : β} {v : α}
    (h : (l.map Prod.fst).Nodup) :
    ((x, v) ∈ l.filterMap fun (name, v) => (meaning? name).map fun x => (x, v)) ↔
      ∃ name, meaning? name = some x ∧ l.lookup name = some v := by
  rw [List.mem_filterMap]
  constructor
  · rintro ⟨⟨name, w⟩, hmem, hname⟩
    obtain ⟨y, hy, heq⟩ := Option.map_eq_some_iff.mp hname
    obtain ⟨rfl, rfl⟩ := Prod.mk.inj heq
    exact ⟨name, hy, (mem_iff_lookup_eq_some h).mp hmem⟩
  · rintro ⟨name, hname, hv⟩
    exact ⟨(name, v), (mem_iff_lookup_eq_some h).mpr hv, by simp [hname]⟩

/-! ### Reading item by item -/

/-- Items that are read one by one are all read, and give the results in their order. -/
theorem mapM_eq_some_iff_map {α β : Type} {f : α → Option β} : ∀ {l : List α} {bs : List β},
    l.mapM f = some bs ↔ l.map f = bs.map some
  | [], [] => by simp
  | [], _ :: _ => by simp
  | x :: l, bs => by
    simp only [List.mapM_cons, Option.bind_eq_bind, Option.pure_def, Option.bind_eq_some_iff, Option.some.injEq,
      mapM_eq_some_iff_map, List.map_cons]
    constructor
    · rintro ⟨b, hb, cs, hcs, rfl⟩
      rw [hb, hcs, List.map_cons]
    · intro h
      cases bs with
      | nil => cases h
      | cons b bs =>
        rw [List.map_cons, List.cons.injEq] at h
        exact ⟨b, h.1, bs, h.2, rfl⟩

theorem mem_of_mapM_eq_some {α β : Type} {f : α → Option β} {l : List α} {bs : List β} (h : l.mapM f = some bs)
    (b : β) : b ∈ bs ↔ ∃ x ∈ l, f x = some b := by
  have hmap := mapM_eq_some_iff_map.mp h
  rw [← List.mem_map (f := f), hmap]
  simp

theorem exists_mapM_eq_some_iff {α β : Type} {f : α → Option β} {l : List α} :
    (∃ bs, l.mapM f = some bs) ↔ ∀ x ∈ l, ∃ b, f x = some b := by
  induction l with
  | nil => simp
  | cons x l ih =>
    rw [List.forall_mem_cons, ← ih]
    constructor
    · rintro ⟨bs, hbs⟩
      rw [List.mapM_cons] at hbs
      obtain ⟨b, hb, hbs⟩ := Option.bind_eq_some_iff.mp hbs
      obtain ⟨cs, hcs, -⟩ := Option.bind_eq_some_iff.mp hbs
      exact ⟨⟨b, hb⟩, cs, hcs⟩
    · rintro ⟨⟨b, hb⟩, bs, hbs⟩
      exact ⟨b :: bs, by simp [List.mapM_cons, hb, hbs]⟩

end Pseudocode
