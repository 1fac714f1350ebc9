/-
# Documents of settings are strict

A document is read over the defaults. In TOML a key names a section or a setting in any letter
case; in YAML names are compared as they are. A document is accepted only if its keys name
sections and settings and its values have the right types, and then each setting that it assigns
has the value assigned, and all others have their defaults. So the format makes no difference
to what comes of the same assignments. All this follows from what is documented of the
decoders, whatever these are.

Some keys pass though they name no setting, and some that do are refused. In YAML a debounce
time can be a mapping with `duration` in it, and a key that is null is passed over
(`Format.Plain`). In TOML a known key is refused if what it stood in has given way to something
else (`Dialect.Lost`).

Key definitions: `Format.Accepts`, `Format.Strict`, `Format.Assigns`, `Format.Named`.
Key theorems: `Settings.ofText_eq_ok_iff`, `Settings.drawnFrom_of_accepts`,
`settings_documents_are_strict`.
-/
import Mathlib
import Pseudocode.Proofs.AssignedSettings
import Pseudocode.Proofs.NamedSettings
import Pseudocode.Proofs.StandardDecoders

namespace Pseudocode

/-! ### Names in either format -/

theorem sameLetters_unique {s a b : String} (ha : sameLetters s a = true) (hb : sameLetters s b = true) :
    a.toList.map foldChar = b.toList.map foldChar := by
  simp only [sameLetters, beq_iff_eq] at ha hb
  rw [← ha, hb]

/-- The names are told apart also if letter case does not count. -/
theorem TomlFormat.tellsApart (F : TomlFormat) : F.dialect.TellsApart where
  refl name := by simp [dialect, sameLetters]
  sections {key g h} hg hh := by
    have hfold := sameLetters_unique hg hh
    revert hfold
    cases g <;> cases h <;> decide
  settings {key x y} hgroup hx hy := by
    have hfold := sameLetters_unique hx hy
    revert hfold hgroup
    cases x <;> cases y <;> decide
  exactly hopens := by simp [dialect] at hopens

theorem YamlFormat.tellsApart (F : YamlFormat) : F.dialect.TellsApart where
  refl name := by simp [dialect]
  sections {key g h} hg hh := by
    have hname : g.name = h.name := (beq_iff_eq.mp hg).symm.trans (beq_iff_eq.mp hh)
    revert hname
    cases g <;> cases h <;> decide
  settings {key x y} hgroup hx hy := by
    have hname : x.name = y.name := (beq_iff_eq.mp hx).symm.trans (beq_iff_eq.mp hy)
    revert hname hgroup
    cases x <;> cases y <;> decide
  exactly _ {key name} h := beq_iff_eq.mp h

/-! ### Texts -/

namespace Format

/-- A decoder makes settings of a text: it leaves no key over, or finds no document. -/
def Accepts (lib : Decoders) (text : String) (s : Settings) : Format → Prop
  | toml => ∃ writes, lib.toml Settings.shape text = some ⟨writes, []⟩ ∧ s = .ofWrites writes
  | yaml => (∃ writes, lib.yaml true Settings.shape text = .ok writes ∧ s = .ofWrites writes) ∨
      lib.yaml true Settings.shape text = .error .endOfInput ∧ s = .default

variable (F : Formats)

/-- A text makes an assignment. -/
def Assigns (text : String) (a : Assignment) : Format → Prop
  | toml => ∃ root keys, F.toml.document? text = some (root, keys) ∧ F.toml.dialect.Assigns root a
  | yaml => ∃ root, F.yaml.document? text = some (some root) ∧ F.yaml.dialect.Assigns root a

/-- A text names no setting in two ways. In YAML there is one way only. -/
def NamesOnce (text : String) : Format → Prop
  | toml => ∀ root keys, F.toml.document? text = some (root, keys) → F.toml.dialect.NamesOnce root
  | yaml => True

/-- The keys of a text name sections and settings, and its values have the right types. In YAML
null keys are left out, and those in a debounce time. -/
def Strict (text : String) : Format → Prop
  | toml => ∃ root keys, F.toml.document? text = some (root, keys) ∧ F.toml.dialect.WellTyped root ∧
      ∀ k ∈ keys, F.toml.dialect.Known k
  | yaml => ∃ root?, F.yaml.document? text = some root? ∧
      ∀ root ∈ root?, F.yaml.dialect.WellTyped root ∧ F.yaml.dialect.KeysFit root

/-- Every key of a text names a section or a setting. -/
def Named (text : String) : Format → Prop
  | toml => ∀ root keys, F.toml.document? text = some (root, keys) → ∀ k ∈ keys, F.toml.dialect.Known k
  | yaml => ∀ root, F.yaml.document? text = some (some root) → F.yaml.dialect.Named root

/-- A text has none of the keys that are left out. -/
def Plain (text : String) : Format → Prop
  | toml => True
  | yaml => ∀ root, F.yaml.document? text = some (some root) → F.yaml.dialect.Plain root

variable {F}

theorem Strict.named_iff : ∀ {f : Format} {text : String}, f.Strict F text → (f.Named F text ↔ f.Plain F text)
  | toml, text, ⟨root, keys, hroot, _, hknown⟩ => by
    refine ⟨fun _ => trivial, fun _ root' keys' hroot' => ?_⟩
    cases Option.some.inj (hroot.symm.trans hroot')
    exact hknown
  | yaml, text, ⟨root?, hroot, hstrict⟩ => by
    refine forall_congr' fun root => forall_congr' fun hroot' => ?_
    obtain rfl := Option.some.inj (hroot.symm.trans hroot')
    obtain ⟨htyped, hkeys⟩ := hstrict root rfl
    exact hkeys.named_iff htyped

/-- A text that names no setting in two ways assigns to none twice. -/
theorem Assigns.unique {f : Format} {text : String} (honce : f.NamesOnce F text) {a b : Assignment}
    (ha : f.Assigns F text a) (hb : f.Assigns F text b) (hset : a.setting = b.setting) : a = b := by
  cases f with
  | toml =>
    obtain ⟨root, keys, hroot, ha⟩ := ha
    obtain ⟨root', keys', hroot', hb⟩ := hb
    cases Option.some.inj (hroot.symm.trans hroot')
    exact ha.unique F.toml.tellsApart (honce root keys hroot) hb hset
  | yaml =>
    obtain ⟨root, hroot, ha⟩ := ha
    obtain ⟨root', hroot', hb⟩ := hb
    cases Option.some.inj (hroot.symm.trans hroot')
    exact ha.unique F.yaml.tellsApart (F.yaml.tellsApart.namesOnce rfl root) hb hset

end Format

/-- Settings are read from a text exactly if a decoder makes them of it. -/
theorem Settings.ofText_eq_ok_iff {lib : Decoders} {f : Format} {text : String} {s : Settings} :
    ofText lib (.given f) text = .ok s ↔ f.Accepts lib text s := by
  cases f with
  | toml =>
    simp only [ofText, Format.Accepts]
    cases lib.toml Settings.shape text with
    | none => simp
    | some r =>
      obtain ⟨writes, keys⟩ := r
      cases keys <;> simp [eq_comm]
  | yaml =>
    simp only [ofText, Format.Accepts]
    cases lib.yaml true Settings.shape text with
    | ok writes => simp [eq_comm]
    | error fault => cases fault <;> simp [eq_comm]

/-- What is stored are values that are assigned. -/
theorem Settings.drawnFrom_ofWrites {ν : Type} {D : Dialect ν} (hD : D.TellsApart) {root : ν} {writes : List Write}
    (hwrites : ∀ w, w ∈ writes ↔ D.Stores Settings.shape root w.path w.value) :
    (ofWrites writes).DrawnFrom (D.Assigns root) := by
  refine drawnFrom_ofAssignments fun a => ?_
  rw [List.mem_filterMap, hD.assigns_iff]
  exact exists_congr fun w => and_congr_left' (hwrites w)

section Documented

variable {lib : Decoders} {F : Formats} {text : String}

/-- The keys that nothing is decoded for are those that name nothing and those that are lost. -/
theorem TomlFormat.Documented.undecoded_eq_unknown {F : TomlFormat} {decode : DataShape → String → Option TomlResult}
    (h : F.Documented Settings.shape decode) {root : F.Node} {keys : List (List String)} {r : TomlResult}
    (hroot : F.document? text = some (root, keys)) (hr : decode Settings.shape text = some r) :
    r.undecoded = (keys.filter fun k => ¬F.dialect.Known k ∨ F.dialect.Lost root k).map F.keyText := by
  rw [h.undecoded_eq text root keys r hroot hr]
  congr 1
  refine List.filter_congr fun k _ => ?_
  rw [Bool.eq_iff_iff, Bool.not_eq_true', decide_eq_true_iff, ← Bool.not_eq_true, F.tellsApart.reaches_iff]
  simp only [not_and, Classical.not_not]
  exact Decidable.imp_iff_not_or

theorem Format.strict_of_toml (h : F.toml.Documented Settings.shape lib.toml) {s : Settings}
    (hs : toml.Accepts lib text s) : toml.Strict F text ∧ s.DrawnFrom (toml.Assigns F text) := by
  obtain ⟨writes, hr, rfl⟩ := hs
  obtain ⟨root, keys, hroot, hfits⟩ := (h.decodes_iff text).mp ⟨_, hr⟩
  have hunknown := h.undecoded_eq_unknown hroot hr
  have hassigns : toml.Assigns F text = F.toml.dialect.Assigns root := by
    funext a
    simp [Assigns, hroot]
  refine ⟨⟨root, keys, hroot, (F.toml.tellsApart.fits_iff.mp hfits).1, fun k hk => ?_⟩, ?_⟩
  · have hnil := List.map_eq_nil_iff.mp hunknown.symm
    have hkept := List.filter_eq_nil_iff.mp hnil k hk
    by_contra hnot
    exact hkept (decide_eq_true (.inl hnot))
  · rw [hassigns]
    exact Settings.drawnFrom_ofWrites F.toml.tellsApart (h.mem_writes_iff text root keys _ hroot hr)

theorem Format.strict_of_yaml (h : F.yaml.Documented Settings.shape lib.yaml) {s : Settings}
    (hs : yaml.Accepts lib text s) : yaml.Strict F text ∧ s.DrawnFrom (yaml.Assigns F text) := by
  obtain ⟨writes, hwrites, rfl⟩ | ⟨hend, rfl⟩ := hs
  · obtain ⟨root, hroot, hfits⟩ := h.fits text writes hwrites
    have hassigns : yaml.Assigns F text = F.yaml.dialect.Assigns root := by
      funext a
      simp [Assigns, hroot]
    obtain ⟨htyped, hkeys⟩ := F.yaml.tellsApart.fits_iff.mp hfits
    refine ⟨⟨some root, hroot, by simpa using ⟨htyped, hkeys rfl⟩⟩, ?_⟩
    rw [hassigns]
    exact Settings.drawnFrom_ofWrites F.yaml.tellsApart (h.mem_writes_iff text root writes hroot hwrites)
  · have hnone := (h.endOfInput_iff text).mp hend
    have hassigns : ∀ a, ¬yaml.Assigns F text a := by
      rintro a ⟨root, hroot, -⟩
      cases hnone.symm.trans hroot
    exact ⟨⟨none, hnone, by simp⟩, fun x => .inr ⟨fun a ha => absurd ha (hassigns a), rfl⟩⟩

/-- **A text that is read is strict, and gives what it assigns.** -/
theorem Settings.drawnFrom_of_accepts (h : lib.Documented F Settings.shape) {f : Format} {s : Settings}
    (hs : f.Accepts lib text s) : f.Strict F text ∧ s.DrawnFrom (f.Assigns F text) ∧
      (f.NamesOnce F text → s.MadeOf (f.Assigns F text)) := by
  have hdrawn : f.Strict F text ∧ s.DrawnFrom (f.Assigns F text) := by
    cases f with
    | toml => exact Format.strict_of_toml h.toml hs
    | yaml => exact Format.strict_of_yaml h.yaml hs
  exact ⟨hdrawn.1, hdrawn.2, fun honce => hdrawn.2.madeOf fun _ _ ha hb => ha.unique honce hb⟩

namespace TomlFormat.Documented

variable {root : F.toml.Node} {keys : List (List String)}

/-- A document whose values have the right types is decoded, whatever its keys are. -/
theorem exists_decode (h : F.toml.Documented Settings.shape lib.toml)
    (hroot : F.toml.document? text = some (root, keys)) (htyped : F.toml.dialect.WellTyped root) : ∃ r, lib.toml Settings.shape text = some r := by
  refine (h.decodes_iff text).mpr ⟨root, keys, hroot, F.toml.tellsApart.fits_iff.mpr ⟨htyped, fun hstrict => ?_⟩⟩
  cases hstrict

theorem ofText_of_known (h : F.toml.Documented Settings.shape lib.toml)
    (hroot : F.toml.document? text = some (root, keys)) (htyped : F.toml.dialect.WellTyped root)
    (hknown : ∀ k ∈ keys, F.toml.dialect.Known k ∧ ¬F.toml.dialect.Lost root k) :
    ∃ s, Settings.ofText lib (.given .toml) text = .ok s := by
  obtain ⟨⟨writes, undecoded⟩, hr⟩ := h.exists_decode hroot htyped
  have hnil : undecoded = [] := by
    rw [show undecoded = _ from h.undecoded_eq_unknown hroot hr, List.map_eq_nil_iff, List.filter_eq_nil_iff]
    intro k hk hrefused
    exact (of_decide_eq_true hrefused).elim (fun hnot => hnot (hknown k hk).1) (hknown k hk).2
  subst hnil
  exact ⟨_, Settings.ofText_eq_ok_iff.mpr ⟨writes, hr, rfl⟩⟩

/-- The keys that are refused are listed in the order of the text. -/
theorem ofText_of_unknown (h : F.toml.Documented Settings.shape lib.toml)
    (hroot : F.toml.document? text = some (root, keys)) (htyped : F.toml.dialect.WellTyped root)
    (hunknown : ∃ k ∈ keys, ¬F.toml.dialect.Known k ∨ F.toml.dialect.Lost root k) :
    Settings.ofText lib (.given .toml) text = .error (.unknownKeys
      ((keys.filter fun k => ¬F.toml.dialect.Known k ∨ F.toml.dialect.Lost root k).map F.toml.keyText)) := by
  obtain ⟨⟨writes, undecoded⟩, hr⟩ := h.exists_decode hroot htyped
  rw [← h.undecoded_eq_unknown hroot hr]
  have hne : undecoded ≠ [] := by
    rw [show undecoded = _ from h.undecoded_eq_unknown hroot hr, ne_eq, List.map_eq_nil_iff, List.filter_eq_nil_iff]
    obtain ⟨k, hk, hrefused⟩ := hunknown
    exact fun hall => hall k hk (decide_eq_true hrefused)
  rw [Settings.ofText, hr]
  cases undecoded with
  | nil => exact absurd rfl hne
  | cons key rest => rfl

end TomlFormat.Documented

end Documented

/-- Exactly the unknown keys are refused if no other is lost. -/
theorem map_refused_eq_iff {F : TomlFormat} {root : F.Node} {keys : List (List String)} :
    ((keys.filter fun k => ¬F.dialect.Known k ∨ F.dialect.Lost root k).map F.keyText =
      (keys.filter fun k => ¬F.dialect.Known k).map F.keyText) ↔
    ∀ k ∈ keys, F.dialect.Known k → ¬F.dialect.Lost root k := by
  constructor
  · intro heq k hk hknown hlost
    -- The unknown keys are among those that are refused, so if there are as many, they are all.
    have hsub : (keys.filter fun k => ¬F.dialect.Known k).Sublist
        (keys.filter fun k => ¬F.dialect.Known k ∨ F.dialect.Lost root k) :=
      List.monotone_filter_right keys fun k hunknown => decide_eq_true (.inl (of_decide_eq_true hunknown))
    have hall := hsub.eq_of_length (by simpa using (congrArg List.length heq).symm)
    have hmem : k ∈ keys.filter fun k => ¬F.dialect.Known k ∨ F.dialect.Lost root k :=
      List.mem_filter.mpr ⟨hk, decide_eq_true (.inr hlost)⟩
    rw [← hall, List.mem_filter] at hmem
    exact of_decide_eq_true hmem.2 hknown
  · intro hkept
    congr 1
    refine List.filter_congr fun k hk => ?_
    rw [decide_eq_decide]
    exact ⟨fun hrefused hknown => hrefused.elim (fun hnot => hnot hknown) (hkept k hk hknown), .inl⟩

/-- An empty text has no keys and assigns nothing. -/
theorem ofText_empty {lib : Decoders} {F : Formats} (h : lib.Documented F Settings.shape) (f : Format) :
    Settings.ofText lib (.given f) "" = .ok .default := by
  cases f with
  | toml =>
    obtain ⟨root, hroot, hview⟩ := h.toml.empty
    obtain ⟨htyped, hnone⟩ := Dialect.wellTyped_of_empty (D := F.toml.dialect) hview
    obtain ⟨s, hs⟩ := h.toml.ofText_of_known hroot htyped (by simp)
    obtain ⟨-, hdrawn, -⟩ := Settings.drawnFrom_of_accepts h (Settings.ofText_eq_ok_iff.mp hs)
    rw [hs, hdrawn.eq_default]
    rintro a ⟨root', keys', hroot', ha⟩
    cases Option.some.inj (hroot.symm.trans hroot')
    exact hnone a ha
  | yaml =>
    have hend := (h.yaml.endOfInput_iff "").mpr h.yaml.empty
    exact Settings.ofText_eq_ok_iff.mpr (.inr ⟨hend, rfl⟩)

/-- **Documents of settings are strict.** Decoders are taken to do what is documented. A text
that is read, in either format, has keys that name sections and settings, and values of their
types; only a YAML text can have other keys, and has none exactly if it is plain. It gives the
settings that it assigns these values and leaves the others at their defaults, so that the
format does not matter, and an empty text changes nothing. A well-typed TOML text with unknown
keys is refused with these keys in the order of the text, and with no others exactly if none
is lost. -/
theorem settings_documents_are_strict {lib : Decoders} {F : Formats} (h : lib.Documented F Settings.shape)
    (f : Format) (text : String) :
    (∀ s, Settings.ofText lib (.given f) text = .ok s →
      f.Strict F text ∧ (f.Named F text ↔ f.Plain F text) ∧ s.DrawnFrom (f.Assigns F text) ∧
        (f.NamesOnce F text → s.MadeOf (f.Assigns F text))) ∧
    (∀ root keys, F.toml.document? text = some (root, keys) → F.toml.dialect.WellTyped root →
      ((∀ k ∈ keys, F.toml.dialect.Known k ∧ ¬F.toml.dialect.Lost root k) →
        ∃ s, Settings.ofText lib (.given .toml) text = .ok s) ∧
      ((∃ k ∈ keys, ¬F.toml.dialect.Known k ∨ F.toml.dialect.Lost root k) →
        Settings.ofText lib (.given .toml) text = .error (.unknownKeys
          ((keys.filter fun k => ¬F.toml.dialect.Known k ∨ F.toml.dialect.Lost root k).map F.toml.keyText))) ∧
      ((∃ k ∈ keys, ¬F.toml.dialect.Known k) →
        (Settings.ofText lib (.given .toml) text = .error (.unknownKeys
            ((keys.filter fun k => ¬F.toml.dialect.Known k).map F.toml.keyText)) ↔
          ∀ k ∈ keys, F.toml.dialect.Known k → ¬F.toml.dialect.Lost root k))) ∧
    (∀ (f' : Format) text' s t, Settings.ofText lib (.given f) text = .ok s →
      Settings.ofText lib (.given f') text' = .ok t → f.NamesOnce F text → f'.NamesOnce F text' →
      (∀ a, f.Assigns F text a ↔ f'.Assigns F text' a) → s = t) ∧
    (text = "" → Settings.ofText lib (.given f) text = .ok .default) := by
  have hmade : ∀ {f text s}, Settings.ofText lib (.given f) text = .ok s → f.Strict F text ∧
      s.DrawnFrom (f.Assigns F text) ∧ (f.NamesOnce F text → s.MadeOf (f.Assigns F text)) := fun hs =>
    Settings.drawnFrom_of_accepts h (Settings.ofText_eq_ok_iff.mp hs)
  refine ⟨fun s hs => ?_, fun root keys hroot htyped => ⟨h.toml.ofText_of_known hroot htyped,
    h.toml.ofText_of_unknown hroot htyped, ?_⟩, ?_, ?_⟩
  · obtain ⟨hstrict, hassigned⟩ := hmade hs
    exact ⟨hstrict, hstrict.named_iff, hassigned⟩
  · rintro ⟨k, hk, hunknown⟩
    rw [h.toml.ofText_of_unknown hroot htyped ⟨k, hk, .inl hunknown⟩, ← map_refused_eq_iff]
    simp only [Except.error.injEq, DocumentFault.unknownKeys.injEq]
  · intro f' text' s t hs ht honce honce' hassigns
    exact ((hmade hs).2.2 honce).unique ((hmade ht).2.2 honce') hassigns
  · rintro rfl
    exact ofText_empty h f

/-- A text in capital letters, with a key of its own above the section. -/
def strayText : String := "foo = true\n[LOG]\nlevel = \"debug\"\n"

/-- The document of `strayText`. -/
def strayDocument : Toml.Document :=
  { fields := [("foo", .value (.flag true)), ("LOG", .table [("level", .value (.text "debug"))])]
    keys := [["foo"], ["LOG"], ["LOG", "level"]] }

theorem ofText?_strayText : Toml.Document.ofText? strayText = some strayDocument := by
  have hread : Toml.read? strayText =
      some [.assign ["foo"] (.flag true), .header ["LOG"], .assign ["level"] (.text "debug")] := by cbv
  rw [Toml.Document.ofText?, hread]
  cbv

theorem wellTyped_strayDocument : Toml.format.dialect.WellTyped (.table strayDocument.fields) := by
  have hwrites : (Toml.Node.table strayDocument.fields).decode? Settings.shape =
      some [⟨["log", "level"], .text "debug"⟩] := by decide +kernel
  have hfits := (Toml.Node.exists_decode?_iff (Toml.neat_root ofText?_strayText)).mp ⟨_, hwrites⟩
  exact (Toml.format.tellsApart.fits_iff.mp hfits).1

/-- A level in YAML. -/
def levelText : String := "log: \x7blevel: debug\x7d"

/-- The stray key is listed alone, though the others are in capital letters. The same level in
YAML is read, and nothing else is changed. -/
theorem strayText_is_refused :
    Settings.ofText .standard (.given .toml) strayText = .error (.unknownKeys ["foo"]) ∧
      Format.yaml.Strict .standard levelText ∧
      ∃ s, Settings.ofText .standard (.given .yaml) levelText = .ok s ∧
        s.MadeOf (Format.yaml.Assigns .standard levelText) := by
  have hwrites : Yaml.decode true Settings.shape levelText = .ok [⟨["log", "level"], .text "debug"⟩] := by
    decide +kernel
  have hok : Settings.ofText .standard (.given .yaml) levelText = .ok { logLevel := "debug" } :=
    Settings.ofText_eq_ok_iff.mpr (.inl ⟨_, hwrites, by decide +kernel⟩)
  have hdocument := Decoders.documented_standard Settings.shape
  obtain ⟨hread, -⟩ := settings_documents_are_strict hdocument .yaml levelText
  obtain ⟨-, htoml, -⟩ := settings_documents_are_strict hdocument .toml strayText
  obtain ⟨hstrict, -, -, hmade⟩ := hread _ hok
  obtain ⟨-, -, hlisted⟩ := htoml _ _ (Toml.document?_eq_some_iff.mpr ⟨_, ofText?_strayText, rfl, rfl⟩)
    wellTyped_strayDocument
  have hstray : ∃ k ∈ strayDocument.keys, ¬Toml.dialect.Known k := by decide +kernel
  have hkept : ∀ k ∈ strayDocument.keys, Toml.dialect.Known k →
      ¬Toml.dialect.Lost (.table strayDocument.fields) k := by decide +kernel
  have hkeys : (strayDocument.keys.filter fun k => ¬Toml.dialect.Known k).map Toml.keyText = ["foo"] := by
    decide +kernel
  have hrefused : Settings.ofText .standard (.given .toml) strayText = .error (.unknownKeys
      ((strayDocument.keys.filter fun k => ¬Toml.dialect.Known k).map Toml.keyText)) := (hlisted hstray).mpr hkept
  rw [hkeys] at hrefused
  exact ⟨hrefused, hstrict, _, hok, hmade trivial⟩

/-- A debounce time as a mapping. -/
def durationText : String := "watch: \x7bdebounce: \x7bduration: 5s\x7d\x7d"

/-- A key that names no setting passes: `duration` in a debounce time. -/
theorem durationKey_accepted :
    Settings.ofText .standard (.given .yaml) durationText = .ok { debounce := ⟨5000000000⟩ } ∧
      ¬Format.yaml.Named .standard durationText := by
  have hwrites : Yaml.decode true Settings.shape durationText =
      .ok [⟨["watch", "debounce", "duration"], .span ⟨5000000000⟩⟩] := by decide +kernel
  refine ⟨Settings.ofText_eq_ok_iff.mpr (.inl ⟨_, hwrites, by decide +kernel⟩), fun hnamed => ?_⟩
  have hkeys : ((Yaml.document? durationText).join.bind fun root =>
      (Yaml.dialect.at? root ["watch", "debounce"]).map Yaml.dialect.keys) = some [some "duration"] := by
    decide +kernel
  obtain ⟨root, hroot, hkeys⟩ := Option.bind_eq_some_iff.mp hkeys
  obtain ⟨n, hn, hkeys⟩ := Option.map_eq_some_iff.mp hkeys
  have hempty : Yaml.dialect.keys n = [] := (hnamed root (Option.join_eq_some_iff.mp hroot)).values
    ["watch", "debounce"] .debounce n ⟨"watch", "debounce", rfl, rfl, rfl⟩ hn
  rw [hempty] at hkeys
  cases hkeys

end Pseudocode
