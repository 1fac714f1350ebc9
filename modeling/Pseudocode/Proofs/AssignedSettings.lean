/-
# Settings as what is assigned to them

The value of a setting is kept as an assignment that would give it (`Settings.get`), so that
settings of any type can be spoken of at once. After assignments a setting has the value of
the last one that is for it, and where there is none the value it had before
(`Settings.get_foldl_assign`).

What a document says is a set of assignments. Settings are drawn from it (`Settings.DrawnFrom`)
if each has one of the values assigned to it, or its default if there is none. Where no setting
is assigned to twice, the settings are made of it (`Settings.MadeOf`), and there is one such value
for all of them together (`Settings.MadeOf.unique`).

Key definitions: `Settings.get`, `assigned?`, `Settings.DrawnFrom`, `Settings.MadeOf`.
Key theorems: `Settings.ext_get`, `Settings.get_assign`, `Settings.get_foldl_assign`,
`Settings.drawnFrom_ofAssignments`, `Settings.DrawnFrom.madeOf`, `Settings.MadeOf.unique`.
-/
import Pseudocode.Settings

namespace Pseudocode

namespace Settings

/-- The value of a setting, as the assignment of it. -/
def get (s : Settings) : Setting → Assignment
  | .logLevel => .logLevel s.logLevel
  | .color => .color s.color
  | .astFormat => .astFormat s.astFormat
  | .traceTokens => .traceTokens s.traceTokens
  | .traceAst => .traceAst s.traceAst
  | .prompt => .prompt s.prompt
  | .historyFile => .historyFile s.historyFile
  | .debounce => .debounce s.debounce

theorem setting_get (s : Settings) (x : Setting) : (s.get x).setting = x := by
  cases x <;> rfl

theorem ext_get {s t : Settings} (h : ∀ x, s.get x = t.get x) : s = t := by
  have hlevel := h .logLevel
  have hcolor := h .color
  have hformat := h .astFormat
  have htokens := h .traceTokens
  have htree := h .traceAst
  have hprompt := h .prompt
  have hhistory := h .historyFile
  have hdebounce := h .debounce
  cases s
  cases t
  simp_all [get]

/-- An assignment changes its own setting and no other. -/
theorem get_assign (s : Settings) (a : Assignment) (x : Setting) :
    (s.assign a).get x = if a.setting = x then a else s.get x := by
  cases a <;> cases x <;> rfl

end Settings

/-- What assignments that are made in turn give a setting: the last one for it counts. -/
def assigned? (as : List Assignment) (x : Setting) : Option Assignment :=
  as.reverse.find? (·.setting = x)

theorem assigned?_append (as bs : List Assignment) (x : Setting) :
    assigned? (as ++ bs) x = (assigned? bs x).or (assigned? as x) := by
  simp [assigned?]

/-- **After assignments a setting has what they give it, else what it had.** -/
theorem Settings.get_foldl_assign (x : Setting) : ∀ (as : List Assignment) (s : Settings),
    (as.foldl assign s).get x = (assigned? as x).getD (s.get x)
  | [], _ => rfl
  | a :: as, s => by
    rw [List.foldl_cons, get_foldl_assign x as, get_assign, ← List.singleton_append, assigned?_append]
    cases assigned? as x with
    | some b => rfl
    | none => by_cases h : a.setting = x <;> simp [assigned?, h]

theorem Settings.get_ofAssignments (as : List Assignment) (x : Setting) :
    (ofAssignments as).get x = (assigned? as x).getD (default.get x) :=
  get_foldl_assign x as default

/-! ### Settings made of what a document says -/

/-- The settings that are assigned have the values assigned, and all others their defaults. -/
structure Settings.MadeOf (stated : Assignment → Prop) (s : Settings) : Prop where
  assigned : ∀ a, stated a → s.get a.setting = a
  others : ∀ x, (∀ a, stated a → a.setting ≠ x) → s.get x = default.get x

/-- Each setting has one of the values assigned to it, or its default if there is none. -/
def Settings.DrawnFrom (stated : Assignment → Prop) (s : Settings) : Prop :=
  ∀ x, stated (s.get x) ∨ (∀ a, stated a → a.setting ≠ x) ∧ s.get x = default.get x

theorem Settings.drawnFrom_ofAssignments {stated : Assignment → Prop} {as : List Assignment}
    (h : ∀ a, a ∈ as ↔ stated a) : (ofAssignments as).DrawnFrom stated := by
  intro x
  rw [get_ofAssignments]
  cases hfound : assigned? as x with
  | some a => exact .inl ((h a).mp (List.mem_reverse.mp (List.mem_of_find?_eq_some hfound)))
  | none =>
    rw [assigned?, List.find?_eq_none] at hfound
    refine .inr ⟨fun a ha => ?_, rfl⟩
    simpa using hfound a (List.mem_reverse.mpr ((h a).mpr ha))

/-- Where nothing is assigned, all settings have their defaults. -/
theorem Settings.DrawnFrom.eq_default {stated : Assignment → Prop} {s : Settings} (hs : s.DrawnFrom stated)
    (hnone : ∀ a, ¬stated a) : s = .default :=
  ext_get fun x => ((hs x).resolve_left (hnone _)).2

/-- If nothing is assigned twice, the values are those that are assigned. -/
theorem Settings.DrawnFrom.madeOf {stated : Assignment → Prop} {s : Settings} (hs : s.DrawnFrom stated)
    (honce : ∀ a b, stated a → stated b → a.setting = b.setting → a = b) : s.MadeOf stated where
  assigned a ha := by
    obtain hstated | ⟨hnone, -⟩ := hs a.setting
    · exact honce _ a hstated ha (setting_get ..)
    · exact absurd rfl (hnone a ha)
  others x hx := by
    obtain hstated | ⟨-, hdefault⟩ := hs x
    · exact absurd (setting_get s x) (hx _ hstated)
    · exact hdefault

/-- **What is assigned determines the settings.** -/
theorem Settings.MadeOf.unique {stated stated' : Assignment → Prop} {s t : Settings} (hs : s.MadeOf stated)
    (ht : t.MadeOf stated') (h : ∀ a, stated a ↔ stated' a) : s = t := by
  apply ext_get
  intro x
  by_cases hx : ∃ a, stated a ∧ a.setting = x
  · obtain ⟨a, ha, rfl⟩ := hx
    rw [hs.assigned a ha, ht.assigned a ((h a).mp ha)]
  · have hnone : ∀ a, stated a → a.setting ≠ x := fun a ha hax => hx ⟨a, ha, hax⟩
    rw [hs.others x hnone, ht.others x fun a ha => hnone a ((h a).mpr ha)]

end Pseudocode
