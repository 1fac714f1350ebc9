/-
# What a document says of settings

A key of a document names a section, or a section and a setting in it. What stands under a
key that names a setting assigns a value to it, if it is a scalar of the right type. All
this is said of the tables of a document and of the names of settings, not of how the
document is decoded (`Dialect.Assigns`, `Dialect.WellTyped`, `Dialect.KeysFit`).

Decoding into the records of settings comes to the same. It is possible exactly if sections are
tables and settings have values of their types, and, where keys must be for fields, if all of
them are (`TellsApart.fits_iff`). What it stores are the values assigned
(`TellsApart.assigns_iff`), and it reaches the known keys that are still there
(`TellsApart.reaches_iff`).

Key definitions: `Dialect.at?`, `Dialect.Known`, `Dialect.WellTyped`, `Dialect.KeysFit`,
`Dialect.Assigns`, `Dialect.Named`, `Dialect.Plain`.
Key theorems: `TellsApart.fits_iff`, `TellsApart.assigns_iff`, `Assigns.unique`,
`TellsApart.reaches_iff`, `KeysFit.named_iff`.
-/
import Mathlib
import Pseudocode.Proofs.DecoderRules
import Pseudocode.Settings.Document

namespace Pseudocode

/-! ### Names and values -/

/-- What a scalar assigns to a setting, if it is good for it. A debounce time is written as a
text. -/
def Setting.read? (r : Reading) : Setting → Option Assignment
  | logLevel => r.text?.map .logLevel
  | color => r.flag?.map .color
  | astFormat => r.text?.map .astFormat
  | traceTokens => r.flag?.map .traceTokens
  | traceAst => r.flag?.map .traceAst
  | prompt => r.text?.map .prompt
  | historyFile => r.text?.map .historyFile
  | debounce => (r.written?.bind fun s => (Duration.ofText s).toOption).map .debounce

theorem Setting.setting_of_assignment? {x : Setting} {v : Stored} {a : Assignment}
    (h : x.assignment? v = some a) : a.setting = x := by
  cases x <;> cases v <;> cases h <;> rfl

/-- What a scalar assigns to a setting is what it gives a value of the type of the setting, and
every such value can be assigned. -/
theorem Setting.read?_eq (x : Setting) (r : Reading) :
    x.read? r = (x.shape.scalar? r).bind x.assignment? ∧ (x.read? r).isSome = (x.shape.scalar? r).isSome := by
  obtain ⟨text?, flag?, span?, written?⟩ := r
  cases x with
  | logLevel | astFormat | prompt | historyFile => cases text? <;> exact ⟨rfl, rfl⟩
  | color | traceTokens | traceAst => cases flag? <;> exact ⟨rfl, rfl⟩
  | debounce =>
    simp only [read?, shape, Duration.shape, DataShape.scalar?, Option.bind_some]
    cases written?.bind fun s => (Duration.ofText s).toOption <;> exact ⟨rfl, rfl⟩

theorem Setting.read?_eq_some_iff {x : Setting} {r : Reading} {a : Assignment} :
    x.read? r = some a ↔ ∃ v, x.shape.scalar? r = some v ∧ x.assignment? v = some a := by
  rw [(x.read?_eq r).1, Option.bind_eq_some_iff]

theorem Setting.exists_read?_iff {x : Setting} {r : Reading} :
    (∃ a, x.read? r = some a) ↔ ∃ v, x.shape.scalar? r = some v := by
  rw [← Option.isSome_iff_exists, ← Option.isSome_iff_exists, (x.read?_eq r).2]

@[simp] theorem Section.named?_name (g : Section) : named? g.name = some g := by
  cases g <;> decide

@[simp] theorem Setting.named?_name (x : Setting) : named? x.group x.name = some x := by
  cases x <;> decide

namespace Dialect

variable {ν : Type} (D : Dialect ν)

/-- What stands under a dotted key. -/
def at? (n : ν) : List String → Option ν
  | [] => some n
  | key :: path => (D.under? n key).bind (at? · path)

/-- A dotted key names a section. -/
def NamesSection (k : List String) (g : Section) : Prop := ∃ key, k = [key] ∧ D.agrees key g.name

/-- A dotted key names a setting in its section. -/
def NamesSetting (k : List String) (x : Setting) : Prop :=
  ∃ group name, k = [group, name] ∧ D.agrees group x.group.name ∧ D.agrees name x.name

/-- A dotted key names a section or a setting. -/
def Known (k : List String) : Prop := (∃ g, D.NamesSection k g) ∨ ∃ x, D.NamesSetting k x

/-- Nothing stands under a dotted key any more. -/
def Lost (root : ν) (k : List String) : Prop := D.at? root k = none

/-- A value has the type of a setting, or is null. Where records with a form as a text can be
tables as well, a debounce time can be one with a length of time under `duration`. -/
def HasType (x : Setting) (n : ν) : Prop :=
  D.view n = .null ∨ (∃ r a, D.view n = .scalar r ∧ x.read? r = some a) ∨
    x = .debounce ∧ D.opens ∧ D.IsTable n ∧ ∀ key v, D.agrees key "duration" → D.under? n key = some v →
      D.view v = .null ∨ ∃ r d, D.view v = .scalar r ∧ r.span? = some d

/-- Sections are tables, and settings have values of their types. -/
structure WellTyped (root : ν) : Prop where
  whole : D.IsRecord root
  sections : ∀ k g n, D.NamesSection k g → D.at? root k = some n → D.IsRecord n
  settings : ∀ k x n, D.NamesSetting k x → D.at? root k = some n → D.HasType x n

/-- Every key with a text names a section, or a setting in one, or is `duration` in a debounce
time. -/
structure KeysFit (root : ν) : Prop where
  sections : ∀ key n, D.under? root key = some n → ∃ g, D.NamesSection [key] g
  settings : ∀ k g n key v, D.NamesSection k g → D.at? root k = some n → D.under? n key = some v →
    ∃ x : Setting, x.group = g ∧ D.agrees key x.name
  values : ∀ k x n key v, D.NamesSetting k x → D.at? root k = some n → D.under? n key = some v →
    x = .debounce ∧ D.agrees key "duration"

/-- Every key names a section, or a setting in one, and values hold no keys. -/
structure Named (root : ν) : Prop where
  sections : ∀ key ∈ D.keys root, ∃ name g, key = some name ∧ D.NamesSection [name] g
  settings : ∀ k g n, D.NamesSection k g → D.at? root k = some n →
    ∀ key ∈ D.keys n, ∃ name, ∃ x : Setting, key = some name ∧ x.group = g ∧ D.agrees name x.name
  values : ∀ k x n, D.NamesSetting k x → D.at? root k = some n → D.keys n = []

/-- No key is null, and a debounce time has no keys. -/
structure Plain (root : ν) : Prop where
  sections : none ∉ D.keys root
  settings : ∀ k g n, D.NamesSection k g → D.at? root k = some n → none ∉ D.keys n
  debounce : ∀ k n, D.NamesSetting k .debounce → D.at? root k = some n → D.keys n = []

/-- A value makes an assignment: it is a scalar that does, or a debounce time with a length of
time under `duration`. -/
def States (n : ν) (a : Assignment) : Prop :=
  (∃ r, D.view n = .scalar r ∧ a.setting.read? r = some a) ∨
    D.opens ∧ ∃ key v r d, D.agrees key "duration" ∧ D.under? n key = some v ∧ D.view v = .scalar r ∧
      r.span? = some d ∧ a = .debounce d

/-- A document makes an assignment under a key that names its setting. -/
def Assigns (root : ν) (a : Assignment) : Prop :=
  ∃ k n, D.NamesSetting k a.setting ∧ D.at? root k = some n ∧ D.States n a

/-- No two keys of a document name one setting. -/
def NamesOnce (root : ν) : Prop :=
  ∀ k l x n m, D.NamesSetting k x → D.NamesSetting l x → D.at? root k = some n → D.at? root l = some m → k = l

/-- The names of sections, and of the settings in one, are told apart. Where records can be
tables, names are compared exactly. -/
structure TellsApart : Prop where
  refl : ∀ name, D.agrees name name
  sections : ∀ {key} {g h : Section}, D.agrees key g.name → D.agrees key h.name → g = h
  settings : ∀ {key} {x y : Setting}, x.group = y.group → D.agrees key x.name → D.agrees key y.name → x = y
  exactly : D.opens → ∀ {key name}, D.agrees key name → key = name

variable {D}

/-! ### Tables -/

@[simp] theorem at?_singleton (n : ν) (key : String) : D.at? n [key] = D.under? n key := by
  simp [at?]

theorem at?_pair {n v : ν} {key name : String} :
    D.at? n [key, name] = some v ↔ ∃ m, D.under? n key = some m ∧ D.under? m name = some v := by
  simp [at?, Option.bind_eq_some_iff]

/-- A document without keys is well typed and assigns nothing. -/
theorem wellTyped_of_empty {root : ν} (h : D.view root = .table []) :
    D.WellTyped root ∧ ∀ a, ¬D.Assigns root a := by
  have hat : ∀ key path, D.at? root (key :: path) = none := fun key path => by simp [at?, under?, h]
  refine ⟨⟨.inr ⟨[], h⟩, ?_, ?_⟩, ?_⟩
  · rintro _ g n ⟨key, rfl, -⟩ hn
    simp [hat] at hn
  · rintro _ x n ⟨group, name, rfl, -⟩ hn
    simp [hat] at hn
  · rintro a ⟨_, n, ⟨group, name, rfl, -⟩, hn, -⟩
    simp [hat] at hn

/-! ### Fields -/

theorem TellsApart.field?_sections (h : D.TellsApart) {key name : String} :
    D.field? (Section.all.map Section.name) key = some name ↔ ∃ g : Section, g.name = name ∧ D.agrees key g.name := by
  have hall : ∀ g, g ∈ Section.all := fun g => by cases g <;> decide
  rw [field?_eq_some_iff h.refl]
  · simp only [List.mem_map, hall, true_and]
    exact ⟨fun ⟨⟨g, hg⟩, hkey⟩ => ⟨g, hg, hg ▸ hkey⟩, fun ⟨g, hg, hkey⟩ => ⟨⟨g, hg⟩, hg ▸ hkey⟩⟩
  · simp only [List.mem_map, hall, true_and]
    rintro _ ⟨g, rfl⟩ _ ⟨g', rfl⟩ hg hg'
    rw [h.sections hg hg']

theorem TellsApart.field?_settings (h : D.TellsApart) {g : Section} {key name : String} :
    D.field? ((Setting.all.filter (·.group = g)).map Setting.name) key = some name ↔
      ∃ x : Setting, x.group = g ∧ x.name = name ∧ D.agrees key x.name := by
  have hall : ∀ x, x ∈ Setting.all := fun x => by cases x <;> decide
  rw [field?_eq_some_iff h.refl]
  · simp only [List.mem_map, List.mem_filter, hall, decide_eq_true_eq, true_and]
    exact ⟨fun ⟨⟨x, hx, hname⟩, hkey⟩ => ⟨x, hx, hname, hname ▸ hkey⟩,
      fun ⟨x, hx, hname, hkey⟩ => ⟨⟨x, hx, hname⟩, hname ▸ hkey⟩⟩
  · simp only [List.mem_map, List.mem_filter, hall, decide_eq_true_eq, true_and]
    rintro _ ⟨x, hx, rfl⟩ _ ⟨y, hy, rfl⟩ hkey hkey'
    rw [h.settings (hx.trans hy.symm) hkey hkey']

theorem TellsApart.field?_duration (h : D.TellsApart) {key name : String} :
    D.field? ["duration"] key = some name ↔ name = "duration" ∧ D.agrees key "duration" := by
  rw [field?_eq_some_iff h.refl (by simp)]
  simp only [List.mem_singleton]
  exact and_congr_right fun hname => by rw [hname]

/-! ### Types -/

theorem TellsApart.fits_settings (h : D.TellsApart) {root : ν} :
    D.Fits Settings.shape root ↔ D.IsRecord root ∧ ∀ key n, D.under? root key = some n →
      (D.strict → ∃ g : Section, D.agrees key g.name) ∧ ∀ g : Section, D.agrees key g.name → D.Fits g.shape n := by
  rw [Settings.shape, fits_record]
  simp only [h.field?_sections]
  refine and_congr_right' (forall₃_congr fun key n _ => and_congr (forall_congr' fun _ => ?_) ?_)
  · exact ⟨fun ⟨_, g, _, hg⟩ => ⟨g, hg⟩, fun ⟨g, hg⟩ => ⟨_, g, rfl, hg⟩⟩
  · constructor
    · intro hfits g hg
      simpa using hfits g.name ⟨g, rfl, hg⟩
    · rintro hfits _ ⟨g, rfl, hg⟩
      simpa using hfits g hg

theorem TellsApart.fits_section (h : D.TellsApart) {g : Section} {n : ν} :
    D.Fits g.shape n ↔ D.IsRecord n ∧ ∀ key v, D.under? n key = some v →
      (D.strict → ∃ x : Setting, x.group = g ∧ D.agrees key x.name) ∧
      ∀ x : Setting, x.group = g → D.agrees key x.name → D.Fits x.shape v := by
  rw [Section.shape, fits_record]
  simp only [h.field?_settings]
  refine and_congr_right' (forall₃_congr fun key v _ => and_congr (forall_congr' fun _ => ?_) ?_)
  · exact ⟨fun ⟨_, x, hx, _, hkey⟩ => ⟨x, hx, hkey⟩, fun ⟨x, hx, hkey⟩ => ⟨_, x, hx, rfl, hkey⟩⟩
  · constructor
    · rintro hfits x rfl hkey
      simpa using hfits x.name ⟨x, rfl, rfl, hkey⟩
    · rintro hfits _ ⟨x, rfl, rfl, hkey⟩
      simpa using hfits x rfl hkey

/-- A scalar gives something of the type of a setting exactly if it assigns a value to it. -/
theorem exists_gives_iff {x : Setting} {n : ν} :
    (∃ v, D.Gives x.shape n v) ↔ ∃ r a, D.view n = .scalar r ∧ x.read? r = some a := by
  constructor
  · rintro ⟨v, r, hview, hv⟩
    obtain ⟨a, ha⟩ := Setting.exists_read?_iff.mpr ⟨v, hv⟩
    exact ⟨r, a, hview, ha⟩
  · rintro ⟨r, a, hview, ha⟩
    obtain ⟨v, hv⟩ := Setting.exists_read?_iff.mp ⟨a, ha⟩
    exact ⟨v, r, hview, hv⟩

theorem fits_span {n : ν} :
    D.Fits .span n ↔ D.view n = .null ∨ ∃ r d, D.view n = .scalar r ∧ r.span? = some d := by
  show (_ ∨ _) ↔ _
  refine or_congr_right ⟨?_, ?_⟩
  · rintro ⟨x, r, hview, hx⟩
    obtain ⟨d, hd, -⟩ := Option.map_eq_some_iff.mp hx
    exact ⟨r, d, hview, hd⟩
  · rintro ⟨r, d, hview, hd⟩
    exact ⟨.span d, r, hview, by simp [DataShape.scalar?, hd]⟩

/-- Only the type of a debounce time is a record. -/
theorem fits_of_ne_debounce {x : Setting} {n : ν} (h : x ≠ .debounce) :
    D.Fits x.shape n ↔ D.view n = .null ∨ ∃ v, D.Gives x.shape n v := by
  cases x with
  | debounce => exact absurd rfl h
  | logLevel | color | astFormat | traceTokens | traceAst | prompt | historyFile => exact Iff.rfl

theorem TellsApart.fits_debounce (h : D.TellsApart) {n : ν} :
    D.Fits Setting.debounce.shape n ↔ D.view n = .null ∨ (∃ v, D.Gives Setting.debounce.shape n v) ∨
      D.IsTable n ∧ D.opens ∧ ∀ key v, D.under? n key = some v →
        (D.strict → D.agrees key "duration") ∧ (D.agrees key "duration" → D.Fits .span v) := by
  rw [Setting.shape, Duration.shape, Fits]
  simp only [Option.isSome_iff_exists, h.field?_duration]
  simp

/-- Of the settings only a debounce time can have keys in it. -/
theorem HasType.eq_debounce {x : Setting} {n v : ν} {key : String} (h : D.HasType x n)
    (hv : D.under? n key = some v) : x = .debounce := by
  obtain hnull | ⟨r, -, hview, -⟩ | ⟨hx, -⟩ := h
  · simp [under?_eq_none_of_null hnull] at hv
  · simp [under?_eq_none_of_scalar hview] at hv
  · exact hx

theorem TellsApart.fits_setting (h : D.TellsApart) {x : Setting} {n : ν} :
    D.Fits x.shape n ↔ D.HasType x n ∧ (D.strict → ∀ key v, D.under? n key = some v → D.agrees key "duration") := by
  have hscalar : (D.view n = .null ∨ ∃ v, D.Gives x.shape n v) →
      D.HasType x n ∧ (D.strict → ∀ key v, D.under? n key = some v → D.agrees key "duration") := by
    rw [exists_gives_iff]
    rintro (hnull | ⟨r, a, hview, ha⟩)
    · exact ⟨.inl hnull, by simp [under?_eq_none_of_null hnull]⟩
    · exact ⟨.inr (.inl ⟨r, a, hview, ha⟩), by simp [under?_eq_none_of_scalar hview]⟩
  by_cases hx : x = .debounce
  · subst hx
    rw [h.fits_debounce]
    constructor
    · rintro (hnull | hgives | ⟨htable, hopens, hfields⟩)
      · exact hscalar (.inl hnull)
      · exact hscalar (.inr hgives)
      · refine ⟨.inr (.inr ⟨rfl, hopens, htable, fun key v hkey hv => ?_⟩),
          fun hstrict key v hv => (hfields key v hv).1 hstrict⟩
        exact fits_span.mp ((hfields key v hv).2 hkey)
    · rintro ⟨hnull | hread | ⟨-, hopens, htable, htyped⟩, hkeys⟩
      · exact .inl hnull
      · exact .inr (.inl (exists_gives_iff.mpr hread))
      · refine .inr (.inr ⟨htable, hopens, fun key v hv => ⟨fun hstrict => hkeys hstrict key v hv, fun hkey => ?_⟩⟩)
        exact fits_span.mpr (htyped key v hkey hv)
  · rw [fits_of_ne_debounce hx]
    refine ⟨hscalar, ?_⟩
    rintro ⟨hnull | hread | ⟨hdebounce, -⟩, -⟩
    · exact .inl hnull
    · exact .inr (exists_gives_iff.mpr hread)
    · exact absurd hdebounce hx

/-- **A document can be decoded into settings exactly if it is well typed and, where that is asked
for, its keys are those of settings.** -/
theorem TellsApart.fits_iff (h : D.TellsApart) {root : ν} :
    D.Fits Settings.shape root ↔ D.WellTyped root ∧ (D.strict → D.KeysFit root) := by
  rw [h.fits_settings]
  constructor
  · rintro ⟨hroot, hsections⟩
    have hsection : ∀ k g n, D.NamesSection k g → D.at? root k = some n → D.Fits g.shape n := by
      rintro _ g n ⟨key, rfl, hkey⟩ hn
      rw [at?_singleton] at hn
      exact (hsections key n hn).2 g hkey
    have hsetting : ∀ k x n, D.NamesSetting k x → D.at? root k = some n → D.Fits x.shape n := by
      rintro _ x n ⟨group, name, rfl, hgroup, hname⟩ hn
      obtain ⟨m, hm, hn⟩ := at?_pair.mp hn
      have hfits := hsection [group] x.group m ⟨group, rfl, hgroup⟩ (by rw [at?_singleton, hm])
      exact ((h.fits_section.mp hfits).2 name n hn).2 x rfl hname
    refine ⟨⟨hroot, fun k g n hk hn => (h.fits_section.mp (hsection k g n hk hn)).1,
      fun k x n hk hn => (h.fits_setting.mp (hsetting k x n hk hn)).1⟩, fun hstrict => ⟨fun key n hn => ?_,
      fun k g n key v hk hn hv => ((h.fits_section.mp (hsection k g n hk hn)).2 key v hv).1 hstrict,
      fun k x n key v hk hn hv => ?_⟩⟩
    · obtain ⟨g, hg⟩ := (hsections key n hn).1 hstrict
      exact ⟨g, key, rfl, hg⟩
    · obtain ⟨htype, hkeys⟩ := h.fits_setting.mp (hsetting k x n hk hn)
      exact ⟨htype.eq_debounce hv, hkeys hstrict key v hv⟩
  · rintro ⟨htyped, hkeys⟩
    have hsetting : ∀ k x n, D.NamesSetting k x → D.at? root k = some n → D.Fits x.shape n := fun k x n hk hn =>
      h.fits_setting.mpr ⟨htyped.settings k x n hk hn, fun hstrict key v hv =>
        ((hkeys hstrict).values k x n key v hk hn hv).2⟩
    refine ⟨htyped.whole, fun group n hn => ⟨fun hstrict => ?_, fun g hgroup => ?_⟩⟩
    · obtain ⟨g, _, hkey, hg⟩ := (hkeys hstrict).sections group n hn
      cases hkey
      exact ⟨g, hg⟩
    · have hk : D.NamesSection [group] g := ⟨group, rfl, hgroup⟩
      have hat : D.at? root [group] = some n := by rw [at?_singleton, hn]
      refine h.fits_section.mpr ⟨htyped.sections _ g n hk hat, fun name v hv => ⟨fun hstrict => ?_, ?_⟩⟩
      · exact (hkeys hstrict).settings _ g n name v hk hat hv
      · rintro x rfl hname
        exact hsetting [group, name] x v ⟨group, name, rfl, hgroup, hname⟩ (at?_pair.mpr ⟨n, hn, hv⟩)

/-! ### What is stored -/

theorem TellsApart.stores_settings (h : D.TellsApart) {root : ν} {path : List String} {v : Stored} :
    D.Stores Settings.shape root path v ↔ ∃ (g : Section) (rest : List String) (key : String) (n : ν),
      path = g.name :: rest ∧ D.agrees key g.name ∧ D.under? root key = some n ∧ D.Stores g.shape n rest v := by
  rw [Settings.shape, stores_record]
  simp only [h.field?_sections]
  constructor
  · rintro ⟨_, rest, key, n, rfl, hn, ⟨g, rfl, hkey⟩, hstores⟩
    exact ⟨g, rest, key, n, rfl, hkey, hn, by simpa using hstores⟩
  · rintro ⟨g, rest, key, n, rfl, hkey, hn, hstores⟩
    exact ⟨_, rest, key, n, rfl, hn, ⟨g, rfl, hkey⟩, by simpa using hstores⟩

theorem TellsApart.stores_section (h : D.TellsApart) {g : Section} {n : ν} {path : List String} {v : Stored} :
    D.Stores g.shape n path v ↔ ∃ (x : Setting) (rest : List String) (key : String) (m : ν), x.group = g ∧
      path = x.name :: rest ∧ D.agrees key x.name ∧ D.under? n key = some m ∧ D.Stores x.shape m rest v := by
  rw [Section.shape, stores_record]
  simp only [h.field?_settings]
  constructor
  · rintro ⟨_, rest, key, m, rfl, hm, ⟨x, rfl, rfl, hkey⟩, hstores⟩
    exact ⟨x, rest, key, m, rfl, rfl, hkey, hm, by simpa using hstores⟩
  · rintro ⟨x, rest, key, m, rfl, rfl, hkey, hm, hstores⟩
    exact ⟨_, rest, key, m, rfl, hm, ⟨x, rfl, rfl, hkey⟩, by simpa using hstores⟩

/-- What is stored is stored in the field of a setting, or below it, from under a key that names the
setting. -/
theorem TellsApart.stores_iff (h : D.TellsApart) {root : ν} {path : List String} {v : Stored} :
    D.Stores Settings.shape root path v ↔ ∃ (x : Setting) (rest k : List String) (n : ν),
      path = x.group.name :: x.name :: rest ∧ D.NamesSetting k x ∧ D.at? root k = some n ∧
        D.Stores x.shape n rest v := by
  rw [h.stores_settings]
  constructor
  · rintro ⟨g, _, group, m, rfl, hgroup, hm, hstores⟩
    obtain ⟨x, rest, name, n, rfl, rfl, hname, hn, hstores⟩ := h.stores_section.mp hstores
    exact ⟨x, rest, _, n, rfl, ⟨group, name, rfl, hgroup, hname⟩, at?_pair.mpr ⟨m, hm, hn⟩, hstores⟩
  · rintro ⟨x, rest, _, n, rfl, ⟨group, name, rfl, hgroup, hname⟩, hn, hstores⟩
    obtain ⟨m, hm, hn⟩ := at?_pair.mp hn
    have hsection := h.stores_section.mpr ⟨x, rest, name, n, rfl, rfl, hname, hn, hstores⟩
    exact ⟨x.group, _, group, m, rfl, hgroup, hm, hsection⟩

/-- A write in the field of a setting, or below it, is an assignment to the setting. -/
theorem assignment?_of_path (x : Setting) (rest : List String) (v : Stored) :
    Write.assignment? ⟨x.group.name :: x.name :: rest, v⟩ = x.assignment? v := by
  simp [Write.assignment?]

theorem stores_span {n : ν} {path : List String} {v : Stored} :
    D.Stores .span n path v ↔ path = [] ∧ ∃ r d, D.view n = .scalar r ∧ r.span? = some d ∧ v = .span d := by
  cases path with
  | nil =>
    rw [Stores, Gives]
    simp only [DataShape.scalar?, Option.map_eq_some_iff, true_and]
    constructor
    · rintro ⟨r, hview, d, hd, rfl⟩
      exact ⟨r, d, hview, hd, rfl⟩
    · rintro ⟨r, d, hview, hd, rfl⟩
      exact ⟨r, hview, d, hd, rfl⟩
  | cons name rest => simp [Stores]

/-- Below the field of a setting there is only the length of time of a debounce time. -/
theorem TellsApart.stores_below (h : D.TellsApart) {x : Setting} {n : ν} {name : String} {rest : List String}
    {v : Stored} : D.Stores x.shape n (name :: rest) v ↔ x = .debounce ∧ D.opens ∧ name = "duration" ∧ rest = [] ∧
      ∃ key m r d, D.agrees key "duration" ∧ D.under? n key = some m ∧ D.view m = .scalar r ∧ r.span? = some d ∧
        v = .span d := by
  by_cases hx : x = .debounce
  · subst hx
    rw [Setting.shape, Duration.shape, Stores]
    simp only [Option.isSome_some, true_implies, h.field?_duration, stores_span, true_and]
    constructor
    · rintro ⟨hopens, key, m, hm, ⟨hname, hkey⟩, hrest, r, d, hview, hd, hv⟩
      exact ⟨hopens, hname, hrest, key, m, r, d, hkey, hm, hview, hd, hv⟩
    · rintro ⟨hopens, hname, hrest, key, m, r, d, hkey, hm, hview, hd, hv⟩
      exact ⟨hopens, key, m, hm, ⟨hname, hkey⟩, hrest, r, d, hview, hd, hv⟩
  · refine iff_of_false ?_ fun hall => hx hall.1
    cases x with
    | debounce => exact absurd rfl hx
    | logLevel | color | astFormat | traceTokens | traceAst | prompt | historyFile => exact id

theorem TellsApart.states_iff (h : D.TellsApart) {n : ν} {a : Assignment} :
    D.States n a ↔ ∃ rest v, D.Stores a.setting.shape n rest v ∧ a.setting.assignment? v = some a := by
  constructor
  · rintro (⟨r, hview, ha⟩ | ⟨hopens, key, m, r, d, hkey, hm, hview, hd, rfl⟩)
    · obtain ⟨v, hv, ha⟩ := Setting.read?_eq_some_iff.mp ha
      refine ⟨[], v, ?_, ha⟩
      rw [Stores]
      exact ⟨r, hview, hv⟩
    · have hbelow := h.stores_below.mpr ⟨rfl, hopens, rfl, rfl, key, m, r, d, hkey, hm, hview, hd, rfl⟩
      exact ⟨["duration"], .span d, hbelow, rfl⟩
  · rintro ⟨rest, v, hstores, ha⟩
    cases rest with
    | nil =>
      rw [Stores] at hstores
      obtain ⟨r, hview, hv⟩ := hstores
      exact .inl ⟨r, hview, Setting.read?_eq_some_iff.mpr ⟨v, hv, ha⟩⟩
    | cons name rest =>
      obtain ⟨hx, hopens, -, -, key, m, r, d, hkey, hm, hview, hd, rfl⟩ := h.stores_below.mp hstores
      rw [hx] at ha
      exact .inr ⟨hopens, key, m, r, d, hkey, hm, hview, hd, (Option.some.inj ha).symm⟩

/-- **What is stored makes the assignments of the document.** -/
theorem TellsApart.assigns_iff (h : D.TellsApart) {root : ν} {a : Assignment} :
    D.Assigns root a ↔ ∃ w : Write, D.Stores Settings.shape root w.path w.value ∧ w.assignment? = some a := by
  constructor
  · rintro ⟨k, n, hk, hn, hstates⟩
    obtain ⟨rest, v, hstores, ha⟩ := h.states_iff.mp hstates
    exact ⟨⟨_, v⟩, h.stores_iff.mpr ⟨a.setting, rest, k, n, rfl, hk, hn, hstores⟩, by rw [assignment?_of_path, ha]⟩
  · rintro ⟨⟨_, v⟩, hstores, ha⟩
    obtain ⟨x, rest, k, n, rfl, hk, hn, hstores⟩ := h.stores_iff.mp hstores
    rw [assignment?_of_path] at ha
    obtain rfl := Setting.setting_of_assignment? ha
    exact ⟨k, n, hk, hn, h.states_iff.mpr ⟨rest, v, hstores, ha⟩⟩

/-- Where no two keys name one setting, no setting is assigned twice. -/
theorem Assigns.unique (h : D.TellsApart) {root : ν} (honce : D.NamesOnce root) {a b : Assignment}
    (ha : D.Assigns root a) (hb : D.Assigns root b) (hsetting : a.setting = b.setting) : a = b := by
  obtain ⟨k, n, hk, hn, ha⟩ := ha
  obtain ⟨l, m, hl, hm, hb⟩ := hb
  obtain rfl := honce k l _ n m hk (hsetting ▸ hl) hn hm
  obtain rfl := Option.some.inj (hn.symm.trans hm)
  obtain ⟨r, hview, ha⟩ | ⟨hopens, key, v, r, d, hkey, hv, hview, hd, rfl⟩ := ha
  · obtain ⟨r', hview', hb⟩ | ⟨-, key, v, -, -, -, hv, -⟩ := hb
    · obtain rfl := View.scalar.inj (hview.symm.trans hview')
      rw [← hsetting] at hb
      exact Option.some.inj (ha.symm.trans hb)
    · simp [under?_eq_none_of_scalar hview] at hv
  · obtain ⟨r', hview', -⟩ | ⟨-, key', v', r', d', hkey', hv', hview', hd', rfl⟩ := hb
    · simp [under?_eq_none_of_scalar hview'] at hv
    · -- Keys are compared exactly here, so both are `duration`.
      obtain rfl := (h.exactly hopens hkey).trans (h.exactly hopens hkey').symm
      obtain rfl := Option.some.inj (hv.symm.trans hv')
      obtain rfl := View.scalar.inj (hview.symm.trans hview')
      rw [Option.some.inj (hd.symm.trans hd')]

/-- Where names are compared exactly, a setting has one name. -/
theorem TellsApart.namesOnce (h : D.TellsApart) (hopens : D.opens) (root : ν) : D.NamesOnce root := by
  rintro _ _ x - - ⟨group, name, rfl, hgroup, hname⟩ ⟨group', name', rfl, hgroup', hname'⟩ - -
  rw [h.exactly hopens hgroup, h.exactly hopens hgroup', h.exactly hopens hname, h.exactly hopens hname']

/-! ### What is reached -/

/-- Whether a dotted key names a section or a setting. -/
def isKnown (D : Dialect ν) : List String → Bool
  | [key] => Section.all.any fun g => D.agrees key g.name
  | [group, name] => Setting.all.any fun x => D.agrees group x.group.name && D.agrees name x.name
  | _ => false

theorem isKnown_iff : ∀ {k : List String}, D.isKnown k = true ↔ D.Known k
  | [] => by simp [isKnown, Known, NamesSection, NamesSetting]
  | [key] => by
    have hall : ∀ g, g ∈ Section.all := fun g => by cases g <;> decide
    simp [isKnown, Known, NamesSection, NamesSetting, hall]
  | [group, name] => by
    have hall : ∀ x, x ∈ Setting.all := fun x => by cases x <;> decide
    simp [isKnown, Known, NamesSection, NamesSetting, hall]
  | _ :: _ :: _ :: _ => by simp [isKnown, Known, NamesSection, NamesSetting]

instance : DecidablePred D.Known := fun _ => decidable_of_iff _ isKnown_iff

instance (root : ν) : DecidablePred (D.Lost root) := fun k =>
  decidable_of_iff (D.at? root k).isNone (by simp [Lost])

/-- Keys that go on below a setting reach nothing. -/
theorem reaches_setting (x : Setting) (n : ν) (k : List String) : D.reaches x.shape n k = false := by
  cases k <;> cases x <;> rfl

theorem TellsApart.reaches_section (h : D.TellsApart) {g : Section} {n : ν} {k : List String} :
    D.reaches g.shape n k = true ↔ ∃ (x : Setting) (name : String) (v : ν), k = [name] ∧ x.group = g ∧
      D.agrees name x.name ∧ D.under? n name = some v := by
  rw [Section.shape, reaches_record]
  simp only [h.field?_settings]
  constructor
  · rintro ⟨name, path, _, v, rfl, ⟨x, rfl, rfl, hname⟩, hv, hpath⟩
    obtain rfl : path = [] := hpath.resolve_right (by simp [reaches_setting])
    exact ⟨x, name, v, rfl, rfl, hname, hv⟩
  · rintro ⟨x, name, v, rfl, rfl, hname, hv⟩
    exact ⟨name, [], _, v, rfl, ⟨x, rfl, rfl, hname⟩, hv, .inl rfl⟩

/-- **What is decoded are the known keys that something still stands under.** -/
theorem TellsApart.reaches_iff (h : D.TellsApart) {root : ν} {k : List String} :
    D.reaches Settings.shape root k = true ↔ D.Known k ∧ ¬D.Lost root k := by
  rw [Settings.shape, reaches_record, Lost, ← ne_eq, Option.ne_none_iff_exists']
  simp only [h.field?_sections]
  constructor
  · rintro ⟨group, path, _, n, rfl, ⟨g, rfl, hgroup⟩, hn, rfl | hpath⟩
    · exact ⟨.inl ⟨g, group, rfl, hgroup⟩, n, by rw [at?_singleton, hn]⟩
    · obtain ⟨x, name, v, rfl, rfl, hname, hv⟩ := h.reaches_section.mp (by simpa using hpath)
      exact ⟨.inr ⟨x, group, name, rfl, hgroup, hname⟩, v, at?_pair.mpr ⟨n, hn, hv⟩⟩
  · rintro ⟨⟨g, group, rfl, hgroup⟩ | ⟨x, group, name, rfl, hgroup, hname⟩, v, hv⟩
    · rw [at?_singleton] at hv
      exact ⟨group, [], _, v, rfl, ⟨g, rfl, hgroup⟩, hv, .inl rfl⟩
    · obtain ⟨n, hn, hv⟩ := at?_pair.mp hv
      refine ⟨group, [name], _, n, rfl, ⟨x.group, rfl, hgroup⟩, hn, .inr ?_⟩
      simpa using h.reaches_section.mpr ⟨x, name, v, rfl, rfl, hname, hv⟩

/-! ### Keys that pass though they name nothing -/

/-- A value that is no debounce time has no keys. -/
theorem HasType.keys_eq_nil {x : Setting} {n : ν} (h : D.HasType x n) (hx : x ≠ .debounce) : D.keys n = [] := by
  obtain hnull | ⟨r, -, hview, -⟩ | ⟨hdebounce, -⟩ := h
  · simp [keys, hnull]
  · simp [keys, hview]
  · exact absurd hdebounce hx

/-- **The keys of a document that is decoded strictly are all named exactly if it is plain.** -/
theorem KeysFit.named_iff {root : ν} (h : D.KeysFit root) (htyped : D.WellTyped root) :
    D.Named root ↔ D.Plain root := by
  constructor
  · intro hnamed
    refine ⟨fun hnull => ?_, fun k g n hk hn hnull => ?_, fun k => hnamed.values k .debounce⟩
    · obtain ⟨_, _, hkey, -⟩ := hnamed.sections none hnull
      cases hkey
    · obtain ⟨_, _, hkey, -⟩ := hnamed.settings k g n hk hn none hnull
      cases hkey
  · intro hplain
    refine ⟨fun key hkey => ?_, fun k g n hk hn key hkey => ?_, fun k x n hk hn => ?_⟩
    · cases key with
      | none => exact absurd hkey hplain.sections
      | some name =>
        obtain ⟨n, hn⟩ := some_mem_keys_iff.mp hkey
        obtain ⟨g, hg⟩ := h.sections name n hn
        exact ⟨name, g, rfl, hg⟩
    · cases key with
      | none => exact absurd hkey (hplain.settings k g n hk hn)
      | some name =>
        obtain ⟨v, hv⟩ := some_mem_keys_iff.mp hkey
        obtain ⟨x, hx, hname⟩ := h.settings k g n name v hk hn hv
        exact ⟨name, x, rfl, hx, hname⟩
    · by_cases hx : x = .debounce
      · subst hx
        exact hplain.debounce k n hk hn
      · exact (htyped.settings k x n hk hn).keys_eq_nil hx

end Dialect

end Pseudocode
