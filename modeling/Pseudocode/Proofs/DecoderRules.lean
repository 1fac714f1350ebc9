/-
# The rules of decoding

What is known of decoders is what their documentation says. The values of a document are
scalars, tables and lists, whatever its format is. Decoding follows the tables of a
document and the records of a shape together. Formats differ in which field a key is
for, in whether a record with a form as a text can be a table as well, and in whether a
key may be for no field. How a text is written down is a matter of its format, and
nothing is said about it here but that a text with nothing in it has no keys.

Key definitions: `View`, `Dialect.Fits`, `Dialect.Stores`, `Dialect.reaches`,
`TomlFormat.Documented`, `YamlFormat.Documented`, `Decoders.Documented`.
-/
import Mathlib
import Pseudocode.Decoder
import Pseudocode.Text.Fold

namespace Pseudocode

/-- What a value of a document is, where the values in it are of type `ν`. -/
inductive View (ν : Type) where
  | null
  | scalar (r : Reading)
  /-- Keys and values. A key can be null as well. -/
  | table (entries : List (Option String × ν))
  /-- A list, or what cannot be decoded into anything. -/
  | other

/-- How the values of a format are decoded. -/
structure Dialect (ν : Type) where
  view : ν → View ν
  /-- Whether a key stands for a field with another name. -/
  agrees : (key name : String) → Bool
  /-- Whether a record that has a form as a text can also be a table. -/
  opens : Bool
  /-- Whether every key has to be for a field. -/
  strict : Bool

namespace Dialect

variable {ν : Type} (D : Dialect ν)

/-- What stands under a key. -/
def under? (n : ν) (key : String) : Option ν :=
  match D.view n with
  | .table entries => entries.lookup (some key)
  | _ => none

/-- The keys in a value. -/
def keys (n : ν) : List (Option String) :=
  match D.view n with
  | .table entries => entries.map Prod.fst
  | _ => []

/-- A value is a table. -/
def IsTable (n : ν) : Prop := ∃ entries, D.view n = .table entries

/-- A value can stand for a record: it is a table or null. -/
def IsRecord (n : ν) : Prop := D.view n = .null ∨ D.IsTable n

/-- The field that a key is for: the one of that very name, else the first that the key
stands for. -/
def field? (names : List String) (key : String) : Option String :=
  (names.find? (· = key)).or (names.find? (D.agrees key ·))

/-- A value is a scalar that is good for a shape, for which it gives `x`. -/
def Gives (t : DataShape) (n : ν) (x : Stored) : Prop :=
  ∃ r, D.view n = .scalar r ∧ t.scalar? r = some x

/-- A value can be decoded into a shape. A null always can. -/
def Fits : DataShape → ν → Prop
  | .record read? names field, n =>
    D.view n = .null ∨ (∃ x, D.Gives (.record read? names field) n x) ∨
      D.IsTable n ∧ (read?.isSome → D.opens) ∧
        ∀ key v, D.under? n key = some v →
          (D.strict → (D.field? names key).isSome) ∧
          ∀ name, D.field? names key = some name → Fits (field name) v
  | t, n => D.view n = .null ∨ ∃ x, D.Gives t n x

/-- Decoding a value into a shape stores `x` under a path of fields. -/
def Stores : DataShape → ν → List String → Stored → Prop
  | t, n, [], x => D.Gives t n x
  | .record read? names field, n, name :: path, x =>
    (read?.isSome → D.opens) ∧
      ∃ key v, D.under? n key = some v ∧ D.field? names key = some name ∧
        Stores (field name) v path x
  | _, _, _ :: _, _ => False

/-- Whether a dotted key leads to something that is decoded. -/
def reaches : DataShape → ν → List String → Bool
  | .record none names field, n, key :: path =>
    match D.field? names key, D.under? n key with
    | some name, some v => path.isEmpty || reaches (field name) v path
    | _, _ => false
  | _, _, _ => false

variable {D}

/-! ### Tables and fields -/

theorem under?_eq_none_of_scalar {n : ν} {r : Reading} (h : D.view n = .scalar r) (key : String) :
    D.under? n key = none := by
  simp [under?, h]

theorem under?_eq_none_of_null {n : ν} (h : D.view n = .null) (key : String) : D.under? n key = none := by
  simp [under?, h]

theorem some_mem_keys_iff {n : ν} {key : String} : some key ∈ D.keys n ↔ ∃ v, D.under? n key = some v := by
  unfold keys under?
  split
  · next entries _ =>
    rw [← Option.ne_none_iff_exists', ne_eq, List.lookup_eq_none_iff]
    simp only [List.mem_map, bne_iff_ne, ne_eq, not_forall, Classical.not_not, exists_prop]
    exact exists_congr fun p => and_congr_right' eq_comm
  · simp

/-- Where a key cannot stand for two fields, it is for the one that it stands for. -/
theorem field?_eq_some_iff {names : List String} {key name : String} (hrefl : ∀ name, D.agrees name name)
    (hunique : ∀ a ∈ names, ∀ b ∈ names, D.agrees key a → D.agrees key b → a = b) :
    D.field? names key = some name ↔ name ∈ names ∧ D.agrees key name := by
  rw [field?, Option.or_eq_some_iff]
  constructor
  · rintro (h | ⟨-, h⟩)
    · obtain rfl : name = key := by simpa using List.find?_some h
      exact ⟨List.mem_of_find?_eq_some h, hrefl name⟩
    · exact ⟨List.mem_of_find?_eq_some h, List.find?_some h⟩
  · rintro ⟨hmem, hagrees⟩
    cases hsame : names.find? (· = key) with
    | some m =>
      obtain rfl : m = key := by simpa using List.find?_some hsame
      exact .inl (congrArg some (hunique _ (List.mem_of_find?_eq_some hsame) _ hmem (hrefl m) hagrees))
    | none =>
      refine .inr ⟨rfl, ?_⟩
      cases hfound : names.find? (D.agrees key ·) with
      | none => exact absurd hagrees (List.find?_eq_none.mp hfound name hmem)
      | some m =>
        exact congrArg some (hunique _ (List.mem_of_find?_eq_some hfound) _ hmem (List.find?_some hfound) hagrees)

/-! ### Records -/

theorem not_gives_record {names : List String} {field : String → DataShape} {n : ν} {x : Stored} :
    ¬D.Gives (.record none names field) n x := by
  rintro ⟨r, -, hx⟩
  simp [DataShape.scalar?] at hx

/-- A record without a form as a text is a table. -/
theorem fits_record {names : List String} {field : String → DataShape} {n : ν} :
    D.Fits (.record none names field) n ↔
      D.IsRecord n ∧ ∀ key v, D.under? n key = some v →
        (D.strict → ∃ name, D.field? names key = some name) ∧
        ∀ name, D.field? names key = some name → D.Fits (field name) v := by
  rw [Fits, or_iff_right (not_exists.mpr fun _ => not_gives_record), IsRecord]
  simp only [Option.isSome_none, Bool.false_eq_true, false_implies, true_and, Option.isSome_iff_exists]
  constructor
  · rintro (hnull | ⟨htable, hfields⟩)
    · exact ⟨.inl hnull, fun key v hv => by simp [under?_eq_none_of_null hnull] at hv⟩
    · exact ⟨.inr htable, hfields⟩
  · rintro ⟨hnull | htable, hfields⟩
    · exact .inl hnull
    · exact .inr ⟨htable, hfields⟩

theorem stores_record {names : List String} {field : String → DataShape} {n : ν} {path : List String} {x : Stored} :
    D.Stores (.record none names field) n path x ↔ ∃ name rest key v, path = name :: rest ∧
      D.under? n key = some v ∧ D.field? names key = some name ∧ D.Stores (field name) v rest x := by
  cases path with
  | nil =>
    rw [Stores, iff_false_intro not_gives_record]
    simp
  | cons name rest =>
    rw [Stores]
    simp

theorem reaches_record {names : List String} {field : String → DataShape} {n : ν} {k : List String} :
    D.reaches (.record none names field) n k = true ↔ ∃ key path name v, k = key :: path ∧
      D.field? names key = some name ∧ D.under? n key = some v ∧
        (path = [] ∨ D.reaches (field name) v path = true) := by
  cases k with
  | nil => simp [reaches]
  | cons key path =>
    rw [reaches]
    cases hname : D.field? names key <;> cases hv : D.under? n key <;> simp [hname, hv]

end Dialect

/-! ### TOML -/

/-- The TOML documents. -/
structure TomlFormat where
  Node : Type
  view : Node → View Node
  /-- The root of the document in a text, and its dotted keys in the order of the text. -/
  document? : String → Option (Node × List (List String))
  /-- A dotted key as text. -/
  keyText : List String → String

namespace TomlFormat

variable (F : TomlFormat)

/-- In TOML a key stands for a field with its name in any letter case, and a key may be
for no field. -/
def dialect : Dialect F.Node :=
  { view := F.view, agrees := sameLetters, opens := false, strict := false }

/-- A decoder does to values of a shape what is documented for TOML. -/
structure Documented (t : DataShape) (decode : DataShape → String → Option TomlResult) : Prop where
  /-- A text with nothing in it has no keys. -/
  empty : ∃ root, F.document? "" = some (root, []) ∧ F.view root = .table []
  /-- What can be decoded are the documents whose values have the types of their fields. -/
  decodes_iff : ∀ text, (∃ r, decode t text = some r) ↔
    ∃ root keys, F.document? text = some (root, keys) ∧ F.dialect.Fits t root
  /-- Each field gets the value of a key that is for it. -/
  mem_writes_iff : ∀ text root keys r, F.document? text = some (root, keys) →
    decode t text = some r → ∀ w, w ∈ r.writes ↔ F.dialect.Stores t root w.path w.value
  /-- The keys that nothing was decoded for are told in the order of the text. -/
  undecoded_eq : ∀ text root keys r, F.document? text = some (root, keys) →
    decode t text = some r →
    r.undecoded = (keys.filter fun k => !F.dialect.reaches t root k).map F.keyText

end TomlFormat

/-! ### YAML -/

/-- The YAML documents. -/
structure YamlFormat where
  Node : Type
  view : Node → View Node
  /-- The root of the first document in a text, if there is one; nothing if the text is
  not well formed. -/
  document? : String → Option (Option Node)

namespace YamlFormat

variable (F : YamlFormat)

/-- In YAML a key is for the field of that very name. Asked to be strict, a decoder
refuses any other key. -/
def dialect : Dialect F.Node :=
  { view := F.view, agrees := (· == ·), opens := true, strict := true }

/-- A decoder that is asked to be strict does to values of a shape what is documented
for YAML. -/
structure Documented (t : DataShape)
    (decode : (strict : Bool) → DataShape → String → Except YamlFault (List Write)) : Prop where
  /-- A text with nothing in it has no document. -/
  empty : F.document? "" = some none
  /-- The input ends early exactly if there is no document. -/
  endOfInput_iff : ∀ text,
    decode true t text = .error .endOfInput ↔ F.document? text = some none
  /-- What is decoded is a document whose values have the types of their fields, and whose
  keys are all for fields. -/
  fits : ∀ text writes, decode true t text = .ok writes →
    ∃ root, F.document? text = some (some root) ∧ F.dialect.Fits t root
  /-- Each field gets the value of the key that is for it. -/
  mem_writes_iff : ∀ text root writes, F.document? text = some (some root) →
    decode true t text = .ok writes → ∀ w, w ∈ writes ↔ F.dialect.Stores t root w.path w.value

end YamlFormat

/-! ### Decoders -/

/-- The documents of both formats. -/
structure Formats where
  toml : TomlFormat
  yaml : YamlFormat

/-- Decoders do to values of a shape what is documented. -/
structure Decoders.Documented (lib : Decoders) (F : Formats) (t : DataShape) : Prop where
  toml : F.toml.Documented t lib.toml
  yaml : F.yaml.Documented t lib.yaml

end Pseudocode
