/-
# The tables of a TOML document and the keys of its text

The text of a document has keys: those of its headers, of its assignments, and of the fields
of tables on one line, wherever these are (`textKeys`). A document keeps all of them in their
order, and in the tables that it builds up no name stands twice (`Orderly`). Each step of the
building adds the keys it reads and keeps the tables orderly (`Draft.Adds`), so that a whole
document is (`Document.ofText?_eq`).

Key definitions: `textKeys`, `Orderly`, `Draft.Adds`.
Key theorems: `Orderly.changeAt`, `Draft.adds_assign`, `Draft.adds_build`, `Document.ofText?_eq`.
-/
import Pseudocode.Proofs.NamedValues
import Pseudocode.Toml.Document

namespace Pseudocode.Toml

/-! ### The keys of a text -/

mutual

/-- The keys inside a value under a key: the fields of tables on one line. -/
def Value.keys : Key → Value → List Key
  | path, .array items => itemKeys path items
  | path, .table fields => fieldKeys path fields
  | _, _ => []

/-- The keys inside the items of an array. -/
def itemKeys : Key → List Value → List Key
  | _, [] => []
  | path, v :: vs => v.keys path ++ itemKeys path vs

/-- The keys of the fields of a table on one line, and those inside them. -/
def fieldKeys : Key → List (Key × Value) → List Key
  | _, [] => []
  | path, (k, v) :: rest => (path ++ k) :: v.keys (path ++ k) ++ fieldKeys path rest

end

/-- The keys of statements below the table at a path, in the order of the text. -/
def textKeys : Key → List Statement → List Key
  | _, [] => []
  | _, .header k :: rest => k :: textKeys k rest
  | _, .rowHeader k :: rest => k :: textKeys k rest
  | path, .assign k v :: rest => (path ++ k) :: v.keys (path ++ k) ++ textKeys path rest

mutual

/-- No key inside a value is empty. -/
def Value.Keyed : Value → Prop
  | .array items => ItemsKeyed items
  | .table fields => FieldsKeyed fields
  | _ => True

/-- No key inside items is empty. -/
def ItemsKeyed : List Value → Prop
  | [] => True
  | v :: vs => v.Keyed ∧ ItemsKeyed vs

/-- No key of fields is empty, nor any inside them. -/
def FieldsKeyed : List (Key × Value) → Prop
  | [] => True
  | (k, v) :: rest => k ≠ [] ∧ v.Keyed ∧ FieldsKeyed rest

end

/-- No key of a statement is empty. -/
def Statement.Keyed : Statement → Prop
  | .header k => k ≠ []
  | .rowHeader k => k ≠ []
  | .assign k v => k ≠ [] ∧ v.Keyed

theorem key_ne_nil {steps : Nat} {cs rest : List Char} {k : Key} (h : key steps cs = some (k, rest)) : k ≠ [] := by
  cases steps with
  | zero => cases h
  | succ steps =>
    obtain ⟨⟨part, more⟩, -, h⟩ := Option.bind_eq_some_iff.mp h
    dsimp only at h
    split at h
    · obtain ⟨⟨parts, more⟩, -, h⟩ := Option.bind_eq_some_iff.mp h
      obtain ⟨rfl, -⟩ := Prod.mk.inj (Option.some.inj h)
      simp
    · obtain ⟨rfl, -⟩ := Prod.mk.inj (Option.some.inj h)
      simp

theorem keyEquals_ne_nil {steps : Nat} {cs rest : List Char} {k : Key} (h : keyEquals steps cs = some (k, rest)) :
    k ≠ [] := by
  obtain ⟨⟨k', more⟩, hk, h⟩ := Option.bind_eq_some_iff.mp h
  dsimp only at h
  split at h
  · obtain ⟨rfl, -⟩ := Prod.mk.inj (Option.some.inj h)
    exact key_ne_nil hk
  · cases h

theorem bareValue?_keyed {run : List Char} {v : Value} (h : bareValue? run = some v) : v.Keyed := by
  unfold bareValue? at h
  repeat' split at h
  all_goals
    cases h
    all_goals simp [Value.Keyed]

mutual

theorem value_keyed : ∀ {steps : Nat} {cs rest : List Char} {v : Value}, value steps cs = some (v, rest) → v.Keyed
  | steps + 1, cs, rest, v, h => by
    rw [value] at h
    split at h
    case h_1 | h_2 =>
      obtain ⟨_, -, h⟩ := Option.map_eq_some_iff.mp h
      obtain ⟨rfl, -⟩ := Prod.mk.inj h
      simp [Value.Keyed]
    case h_3 =>
      obtain ⟨⟨vs, more⟩, hvs, h⟩ := Option.map_eq_some_iff.mp h
      obtain ⟨rfl, -⟩ := Prod.mk.inj h
      rw [Value.Keyed]
      exact items_keyed hvs
    case h_4 =>
      split at h
      · obtain ⟨rfl, -⟩ := Prod.mk.inj (Option.some.inj h)
        simp [Value.Keyed, FieldsKeyed]
      · obtain ⟨⟨fs, more⟩, hfs, h⟩ := Option.map_eq_some_iff.mp h
        obtain ⟨rfl, -⟩ := Prod.mk.inj h
        rw [Value.Keyed]
        exact fields_keyed hfs
    case h_5 =>
      obtain ⟨w, hw, h⟩ := Option.map_eq_some_iff.mp h
      obtain ⟨rfl, -⟩ := Prod.mk.inj h
      exact bareValue?_keyed hw

theorem items_keyed : ∀ {steps : Nat} {cs rest : List Char} {vs : List Value},
    items steps cs = some (vs, rest) → ItemsKeyed vs
  | steps + 1, cs, rest, vs, h => by
    rw [items] at h
    split at h
    · obtain ⟨rfl, -⟩ := Prod.mk.inj (Option.some.inj h)
      simp [ItemsKeyed]
    · obtain ⟨⟨v, more⟩, hv, h⟩ := Option.bind_eq_some_iff.mp h
      dsimp only at h
      split at h
      · obtain ⟨⟨ws, more⟩, hws, h⟩ := Option.bind_eq_some_iff.mp h
        obtain ⟨rfl, -⟩ := Prod.mk.inj (Option.some.inj h)
        rw [ItemsKeyed]
        exact ⟨value_keyed hv, items_keyed hws⟩
      · obtain ⟨rfl, -⟩ := Prod.mk.inj (Option.some.inj h)
        rw [ItemsKeyed, ItemsKeyed]
        exact ⟨value_keyed hv, trivial⟩
      · cases h

theorem fields_keyed : ∀ {steps : Nat} {cs rest : List Char} {fs : List (Key × Value)},
    fields steps cs = some (fs, rest) → FieldsKeyed fs
  | steps + 1, cs, rest, fs, h => by
    rw [fields] at h
    obtain ⟨⟨k, more⟩, hk, h⟩ := Option.bind_eq_some_iff.mp h
    obtain ⟨⟨v, more⟩, hv, h⟩ := Option.bind_eq_some_iff.mp h
    dsimp only at h
    split at h
    · obtain ⟨⟨gs, more⟩, hgs, h⟩ := Option.bind_eq_some_iff.mp h
      obtain ⟨rfl, -⟩ := Prod.mk.inj (Option.some.inj h)
      rw [FieldsKeyed]
      exact ⟨keyEquals_ne_nil hk, value_keyed hv, fields_keyed hgs⟩
    · obtain ⟨rfl, -⟩ := Prod.mk.inj (Option.some.inj h)
      rw [FieldsKeyed, FieldsKeyed]
      exact ⟨keyEquals_ne_nil hk, value_keyed hv, trivial⟩
    · cases h

end

theorem statement_keyed {steps : Nat} {cs rest : List Char} {s : Statement}
    (h : statement steps cs = some (s, rest)) : s.Keyed := by
  unfold statement at h
  split at h
  case h_1 | h_2 =>
    obtain ⟨⟨k, more⟩, hk, h⟩ := Option.bind_eq_some_iff.mp h
    dsimp only at h
    split at h
    · obtain ⟨rfl, -⟩ := Prod.mk.inj (Option.some.inj h)
      exact key_ne_nil hk
    · cases h
  case h_3 =>
    obtain ⟨⟨k, more⟩, hk, h⟩ := Option.bind_eq_some_iff.mp h
    obtain ⟨⟨v, more⟩, hv, h⟩ := Option.bind_eq_some_iff.mp h
    obtain ⟨rfl, -⟩ := Prod.mk.inj (Option.some.inj h)
    exact ⟨keyEquals_ne_nil hk, value_keyed hv⟩

theorem statements_keyed : ∀ {steps : Nat} {cs : List Char} {sts : List Statement},
    statements steps cs = some sts → ∀ s ∈ sts, s.Keyed
  | steps + 1, cs, sts, h => by
    rw [statements] at h
    split at h
    · obtain rfl := Option.some.inj h
      simp
    · obtain ⟨⟨s, rest⟩, hs, h⟩ := Option.bind_eq_some_iff.mp h
      obtain ⟨rest', -, h⟩ := Option.bind_eq_some_iff.mp h
      obtain ⟨more, hmore, h⟩ := Option.bind_eq_some_iff.mp h
      obtain rfl := Option.some.inj h
      rw [List.forall_mem_cons]
      exact ⟨statement_keyed hs, statements_keyed hmore⟩

/-- **No key of a text is empty.** -/
theorem read?_keyed {text : String} {sts : List Statement} (h : read? text = some sts) : ∀ s ∈ sts, s.Keyed := by
  unfold read? at h
  dsimp only at h
  split at h
  all_goals
    split at h
    · exact statements_keyed h
    · cases h

/-! ### Orderly tables -/

/-- In a table no name comes twice, and the tables under the names are like that too. -/
inductive Orderly : Fields → Prop where
  | intro {fields : Fields} : (fields.map Prod.fst).Nodup →
      (∀ name inner, (name, Node.table inner) ∈ fields → Orderly inner) → Orderly fields

namespace Orderly

variable {fields : Fields}

theorem nil : Orderly [] := intro (by simp) (by simp)

theorem nodup (h : Orderly fields) : (fields.map Prod.fst).Nodup := by
  cases h
  assumption

theorem table (h : Orderly fields) {name : String} {inner : Fields}
    (hname : fields.lookup name = some (.table inner)) : Orderly inner := by
  obtain ⟨hnodup, htable⟩ := h
  exact htable name inner ((mem_iff_lookup_eq_some hnodup).mpr hname)

end Orderly

theorem names_putField (name : String) (node : Node) : ∀ fields : Fields,
    (putField name node fields).map Prod.fst =
      if name ∈ fields.map Prod.fst then fields.map Prod.fst else fields.map Prod.fst ++ [name]
  | [] => by simp [putField]
  | (n, old) :: rest => by
    by_cases hn : n = name
    · simp [putField, hn]
    · have hne : name ≠ n := Ne.symm hn
      rw [putField, if_neg hn, List.map_cons, names_putField name node rest, List.map_cons]
      by_cases hmem : name ∈ rest.map Prod.fst
      · rw [if_pos hmem, if_pos (List.mem_cons_of_mem _ hmem)]
      · rw [if_neg hmem, if_neg (by simpa [hne] using hmem), List.cons_append]

theorem mem_putField {name n : String} {node x : Node} : ∀ {fields : Fields},
    (n, x) ∈ putField name node fields → (n = name ∧ x = node) ∨ (n, x) ∈ fields
  | [], h => by simpa [putField] using h
  | (m, old) :: rest, h => by
    rw [putField] at h
    split at h
    · next hm =>
      subst hm
      rcases List.mem_cons.mp h with heq | hmem
      · exact .inl (Prod.mk.inj heq)
      · exact .inr (List.mem_cons_of_mem _ hmem)
    · rcases List.mem_cons.mp h with heq | hmem
      · exact .inr (heq ▸ List.mem_cons_self)
      · exact (mem_putField hmem).imp id (List.mem_cons_of_mem _)

namespace Orderly

/-- A name may get a new meaning that is orderly itself. -/
theorem putField {fields : Fields} (h : Orderly fields) {name : String} {node : Node}
    (hnode : ∀ inner, node = .table inner → Orderly inner) : Orderly (putField name node fields) := by
  obtain ⟨hnodup, htable⟩ := h
  refine intro ?_ (fun n inner hmem => ?_)
  · rw [names_putField]
    split
    · exact hnodup
    · next hnew =>
      rw [List.nodup_append]
      refine ⟨hnodup, by simp, ?_⟩
      rintro a ha _ hb rfl
      exact hnew (List.mem_singleton.mp hb ▸ ha)
  · rcases mem_putField hmem with ⟨-, heq⟩ | hold
    · exact hnode inner heq.symm
    · exact htable n inner hold

/-- A table stays orderly if a change to one further down does. -/
theorem changeAt {change : Fields → Option Fields}
    (hchange : ∀ old new, change old = some new → Orderly old → Orderly new) :
    ∀ {path : Key} {fields fields' : Fields}, changeAt change path fields = some fields' → Orderly fields →
      Orderly fields'
  | [], _, _, h, horderly => hchange _ _ h horderly
  | name :: path, fields, fields', h, horderly => by
    rw [Toml.changeAt] at h
    split at h
    · next inner hinner =>
      obtain ⟨inner', hinner', h⟩ := Option.bind_eq_some_iff.mp h
      obtain rfl := Option.some.inj h
      refine horderly.putField ?_
      rintro _ ⟨⟩
      exact changeAt hchange hinner' (horderly.table hinner)
    · next current earlier hrows =>
      obtain ⟨current', -, h⟩ := Option.bind_eq_some_iff.mp h
      obtain rfl := Option.some.inj h
      exact horderly.putField (by simp)
    · cases h

theorem putPath {node : Node} (hnode : ∀ inner, node = .table inner → Orderly inner) :
    ∀ {k : Key} {fields : Fields}, Orderly fields → Orderly (putPath k node fields)
  | [], _, h => h
  | [name], _, h => h.putField hnode
  | name :: next :: k, fields, h => by
    refine h.putField ?_
    rintro _ ⟨⟩
    refine putPath hnode ?_
    split
    · next inner hinner => exact h.table hinner
    · exact nil

end Orderly

mutual

/-- A value that is a table on one line is orderly. -/
theorem orderly_node : ∀ {v : Value} (inner : Fields), v.node = .table inner → Orderly inner
  | .table fields, inner, h => by
    rw [Value.node] at h
    obtain rfl := Node.table.inj h
    exact orderly_fieldNodes .nil
  | .text _, inner, h | .integer _, inner, h | .flag _, inner, h | .float, inner, h | .moment, inner, h
  | .array _, inner, h => by
    simp [Value.node] at h

theorem orderly_fieldNodes : ∀ {fields : List (Key × Value)} {above : Fields}, Orderly above →
    Orderly (fieldNodes fields above)
  | [], above, h => by
    rw [fieldNodes]
    exact h
  | (k, v) :: rest, above, h => by
    rw [fieldNodes]
    exact orderly_fieldNodes (h.putPath orderly_node)

end

/-! ### Building up a document -/

namespace Draft

/-- A draft notes new keys, and its tables stay orderly. -/
structure Adds (new : List Key) (d d' : Draft) : Prop where
  keys : d'.keys = new.reverse ++ d.keys
  orderly : Orderly d.fields → Orderly d'.fields

variable {new more : List Key} {d d' d'' : Draft}

theorem Adds.trans (h : Adds new d d') (h' : Adds more d' d'') : Adds (new ++ more) d d'' where
  keys := by rw [h'.keys, h.keys, List.reverse_append, List.append_assoc]
  orderly := h'.orderly ∘ h.orderly

theorem adds_refl (d : Draft) : Adds [] d d := ⟨rfl, id⟩

theorem adds_imply (path : Key) (d : Draft) : Adds [] d (d.imply path) := ⟨rfl, id⟩

theorem adds_noteArray (path : Key) (isArray : Bool) (d : Draft) : Adds [] d (d.noteArray path isArray) := ⟨rfl, id⟩

theorem adds_noteKey (path : Key) (d : Draft) : Adds [path] d (d.noteKey path) := ⟨rfl, id⟩

theorem adds_define {path : Key} {name : String} {node : Node}
    (hnode : ∀ inner, node = .table inner → Orderly inner) (h : d.define path name node = some d') : Adds [] d d' := by
  obtain ⟨fields, hfields, h⟩ := Option.bind_eq_some_iff.mp h
  obtain rfl := Option.some.inj h
  refine ⟨rfl, Orderly.changeAt (fun old new hnew hold => ?_) hfields⟩
  split at hnew
  · obtain rfl := Option.some.inj hnew
    exact hold.putField hnode
  · split at hnew
    · obtain rfl := Option.some.inj hnew
      exact hold
    · cases hnew

theorem adds_makePath : ∀ {rest done : Key} {d : Draft}, makePath done rest d = some d' → Adds [] d d'
  | [], done, d, h => by
    obtain rfl := Option.some.inj h
    exact adds_refl d
  | name :: rest, done, d, h => by
    obtain ⟨fields, hfields, h⟩ := Option.bind_eq_some_iff.mp h
    have hstep : Adds [] d { (if d.isFree done name then d.imply (done ++ [name]) else d) with fields } := by
      refine ⟨by split <;> rfl, Orderly.changeAt (fun old new hnew hold => ?_) hfields⟩
      split at hnew
      · obtain rfl := Option.some.inj hnew
        refine hold.putField ?_
        rintro _ ⟨⟩
        exact .nil
      · cases hnew
      · obtain rfl := Option.some.inj hnew
        exact hold
    exact hstep.trans (adds_makePath h)

theorem adds_begin {path : Key} {isRow : Bool} (h : d.begin path isRow = some d') : Adds [] d d' := by
  obtain ⟨d₁, hd₁, h⟩ := Option.bind_eq_some_iff.mp h
  refine (adds_makePath hd₁).trans ?_
  cases isRow with
  | true =>
    obtain ⟨fields, hfields, h⟩ := Option.bind_eq_some_iff.mp h
    obtain rfl := Option.some.inj h
    refine ⟨rfl, Orderly.changeAt (fun old new hnew hold => ?_) hfields⟩
    split at hnew
    · obtain rfl := Option.some.inj hnew
      exact hold.putField (by simp)
    · obtain rfl := Option.some.inj hnew
      exact hold.putField (by simp)
    · cases hnew
  | false =>
    refine adds_define ?_ h
    rintro _ ⟨⟩
    exact .nil

theorem adds_through {onLine : Bool} : ∀ {rest path : Key} {d : Draft}, through onLine path rest d = some d' →
    Adds [] d d'
  | [], path, d, h => by
    obtain rfl := Option.some.inj h
    exact adds_refl d
  | name :: rest, path, d, h => by
    rw [through] at h
    split at h
    · cases h
    · obtain ⟨d₁, hd₁, h⟩ := Option.bind_eq_some_iff.mp h
      exact ((adds_imply _ d).trans (adds_begin hd₁)).trans (adds_through h)

theorem dropLast_append_getLastD {k : Key} (h : k ≠ []) : k.dropLast ++ [k.getLastD ""] = k := by
  rw [List.getLastD_eq_getLast?, List.getLast?_eq_some_getLast h, Option.getD_some, List.dropLast_concat_getLast]

/-- Assigning a value adds its key, and the keys inside it if entering the value does. -/
theorem adds_assign {onLine : Bool} {path k : Key} {v : Value} (hk : k ≠ [])
    (hinside : ∀ {d d' : Draft}, inside (path ++ k) false v d = some d' → Adds (v.keys (path ++ k)) d d')
    (h : d.assign onLine path k v = some d') : Adds ((path ++ k) :: v.keys (path ++ k)) d d' := by
  have hlast : path ++ k.dropLast ++ [k.getLastD ""] = path ++ k := by
    rw [List.append_assoc, dropLast_append_getLastD hk]
  rw [assign] at h
  obtain ⟨d₁, hd₁, h⟩ := Option.bind_eq_some_iff.mp h
  obtain ⟨d₂, hd₂, h⟩ := Option.bind_eq_some_iff.mp h
  obtain ⟨d₃, hd₃, h⟩ := Option.bind_eq_some_iff.mp h
  obtain rfl := Option.some.inj h
  rw [hlast] at hd₂
  have hall : Adds ((path ++ k) :: v.keys (path ++ k)) d d₃ := by
    have hsteps := (((adds_through hd₁).trans (adds_noteKey _ d₁)).trans (hinside hd₂)).trans
      (adds_define orderly_node hd₃)
    simpa using hsteps
  exact ⟨hall.keys, hall.orderly⟩

mutual

/-- Entering a value adds the keys inside it. -/
theorem adds_inside : ∀ {path : Key} {isRow : Bool} {v : Value} {d d' : Draft}, v.Keyed →
    inside path isRow v d = some d' → Adds (v.keys path) d d'
  | path, isRow, .table fields, d, d', hkeyed, h => by
    rw [inside] at h
    rw [Value.Keyed] at hkeyed
    rw [Value.keys]
    obtain ⟨d₁, hd₁, h⟩ := Option.bind_eq_some_iff.mp h
    exact ((adds_imply path d).trans (adds_begin hd₁)).trans (adds_insideFields hkeyed h)
  | path, isRow, .array vs, d, d', hkeyed, h => by
    rw [inside] at h
    rw [Value.Keyed] at hkeyed
    rw [Value.keys]
    exact (adds_noteArray _ true d).trans (adds_insideItems hkeyed h)
  | path, _, .text _, d, d', _, h | path, _, .integer _, d, d', _, h | path, _, .flag _, d, d', _, h
  | path, _, .float, d, d', _, h | path, _, .moment, d, d', _, h => by
    rw [inside] at h
    · obtain rfl := Option.some.inj h
      exact adds_refl d
    all_goals simp

theorem adds_insideItems : ∀ {path : Key} {vs : List Value} {d d' : Draft}, ItemsKeyed vs →
    insideItems path vs d = some d' → Adds (itemKeys path vs) d d'
  | path, [], d, d', _, h => by
    rw [insideItems] at h
    obtain rfl := Option.some.inj h
    exact adds_refl d
  | path, v :: vs, d, d', hkeyed, h => by
    rw [insideItems] at h
    rw [ItemsKeyed] at hkeyed
    rw [itemKeys]
    obtain ⟨d₁, hd₁, h⟩ := Option.bind_eq_some_iff.mp h
    exact (adds_inside hkeyed.1 hd₁).trans (adds_insideItems hkeyed.2 h)

theorem adds_insideFields : ∀ {path : Key} {fields : List (Key × Value)} {d d' : Draft}, FieldsKeyed fields →
    insideFields path fields d = some d' → Adds (fieldKeys path fields) d d'
  | path, [], d, d', _, h => by
    rw [insideFields] at h
    obtain rfl := Option.some.inj h
    exact adds_refl d
  | path, (k, v) :: rest, d, d', hkeyed, h => by
    rw [insideFields] at h
    rw [FieldsKeyed] at hkeyed
    rw [fieldKeys]
    obtain ⟨hk, hv, hrest⟩ := hkeyed
    obtain ⟨d₁, hd₁, h⟩ := Option.bind_eq_some_iff.mp h
    exact (adds_assign hk (adds_inside hv) hd₁).trans (adds_insideFields hrest h)

end

theorem adds_build : ∀ {path : Key} {sts : List Statement} {d d' : Draft}, (∀ s ∈ sts, s.Keyed) →
    build path sts d = some d' → Adds (textKeys path sts) d d'
  | path, [], d, d', _, h => by
    obtain rfl := Option.some.inj h
    exact adds_refl d
  | path, .header k :: rest, d, d', hkeyed, h | path, .rowHeader k :: rest, d, d', hkeyed, h => by
    rw [List.forall_mem_cons] at hkeyed
    obtain ⟨d₁, hd₁, h⟩ := Option.bind_eq_some_iff.mp h
    have hnoted := ((adds_begin hd₁).trans (adds_noteArray k false d₁)).trans (adds_noteKey k _)
    exact hnoted.trans (adds_build hkeyed.2 h)
  | path, .assign k v :: rest, d, d', hkeyed, h => by
    rw [List.forall_mem_cons] at hkeyed
    obtain ⟨⟨hk, hv⟩, hrest⟩ := hkeyed
    obtain ⟨d₁, hd₁, h⟩ := Option.bind_eq_some_iff.mp h
    exact (adds_assign hk (adds_inside hv) hd₁).trans (adds_build hrest h)

end Draft

/-- **A document has the keys of its text in their order, and its tables are orderly.** -/
theorem Document.ofText?_eq {text : String} {d : Document} (h : ofText? text = some d) :
    ∃ sts, read? text = some sts ∧ d.keys = textKeys [] sts ∧ Orderly d.fields := by
  obtain ⟨sts, hsts, h⟩ := Option.bind_eq_some_iff.mp h
  obtain ⟨draft, hdraft, h⟩ := Option.bind_eq_some_iff.mp h
  obtain rfl := Option.some.inj h
  have hadds : Draft.Adds (textKeys [] sts) {} draft := Draft.adds_build (read?_keyed hsts) hdraft
  exact ⟨sts, hsts, by rw [hadds.keys]; simp, hadds.orderly .nil⟩

end Pseudocode.Toml
