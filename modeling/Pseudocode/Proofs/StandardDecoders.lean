/-
# The decoders at hand keep the rules

The decoders that the program works with do what is documented of such decoders, for values of
every shape (`Decoders.documented_standard`). For TOML a table is decoded entry by entry, and no
key is in it twice. For YAML a mapping is decoded by the fields that are found in it, which
are all that it has itself or takes in. The induction is on the shape in both.

Key definitions: `Toml.format`, `Yaml.format`, `Formats.standard`.
Key theorems: `Toml.Node.exists_decode?_iff`, `Toml.Node.mem_decode?`, `Yaml.Node.decode?_eq`,
`Decoders.documented_standard`.
-/
import Mathlib
import Pseudocode.Decoder.Standard
import Pseudocode.Proofs.DecoderRules
import Pseudocode.Proofs.TomlTables
import Pseudocode.Proofs.YamlMappings

namespace Pseudocode

/-- Keys that are wrapped up are looked up like the keys themselves. -/
theorem lookup_map_some {α : Type} (key : String) : ∀ l : List (String × α),
    (l.map fun (name, v) => (some name, v)).lookup (some key) = l.lookup key
  | [] => rfl
  | (name, v) :: l => by simp [List.lookup_cons, lookup_map_some key l]

/-- A record is read field by field, and what each field stores is stored under its name. -/
theorem mem_flatten_under {α : Type} (read : String → α → Option (List Write)) {fields : List (String × α)}
    {parts : List (List Write)}
    (h : fields.mapM (fun (name, v) => (read name v).map (List.map (Write.under name))) = some parts) (w : Write) :
    w ∈ parts.flatten ↔ ∃ name v ws u, (name, v) ∈ fields ∧ read name v = some ws ∧ u ∈ ws ∧ w = u.under name := by
  rw [List.mem_flatten]
  simp only [mem_of_mapM_eq_some h]
  constructor
  · rintro ⟨_, ⟨⟨name, v⟩, hmem, hread⟩, hw⟩
    obtain ⟨ws, hws, rfl⟩ := Option.map_eq_some_iff.mp hread
    obtain ⟨u, hu, rfl⟩ := List.mem_map.mp hw
    exact ⟨name, v, ws, u, hmem, hws, hu, rfl⟩
  · rintro ⟨name, v, ws, u, hmem, hws, hu, rfl⟩
    exact ⟨_, ⟨(name, v), hmem, by simp [hws]⟩, List.mem_map_of_mem hu⟩

/-! ### TOML -/

namespace Toml

/-- What a node is: all values but arrays and tables on one line are scalars. -/
def Node.view : Node → View Node
  | .table fields => .table (fields.map fun (name, node) => (some name, node))
  | .value (.array _) => .other
  | .value (.table _) => .other
  | .value v => .scalar v.reading
  | .rows .. => .other

/-- The keys of a text, as they are written in it. -/
def keysOfText (text : String) : List Key := ((read? text).map (textKeys [])).getD []

/-- TOML as it is read here. -/
def format : TomlFormat where
  Node := Node
  view := Node.view
  document? text := (Document.ofText? text).map fun d => (.table d.fields, keysOfText text)
  keyText := keyText

/-- How nodes are decoded. -/
def dialect : Dialect Node := { view := Node.view, agrees := sameLetters, opens := false, strict := false }

@[simp] theorem dialect_opens : dialect.opens = false := rfl

@[simp] theorem dialect_strict : dialect.strict = false := rfl

theorem under?_table (fields : Fields) (key : String) : dialect.under? (.table fields) key = fields.lookup key :=
  lookup_map_some key fields

theorem field?_eq (names : List String) (key : String) : dialect.field? names key = fieldNamed? names key := rfl

theorem under?_value (v : Value) (key : String) : dialect.under? (.value v) key = none := by cases v <;> rfl

theorem under?_rows (current : Fields) (earlier : List Fields) (key : String) :
    dialect.under? (.rows current earlier) key = none := rfl

theorem isTable_table (fields : Fields) : dialect.IsTable (.table fields) := ⟨_, rfl⟩

theorem not_isTable_value (v : Value) : ¬dialect.IsTable (.value v) := by
  rintro ⟨entries, h⟩
  cases v <;> cases h

theorem view_ne_null (n : Node) : dialect.view n ≠ .null := by
  intro h
  cases n with
  | value v => cases v <;> cases h
  | table | rows => cases h

theorem gives_value {t : DataShape} {v : Value} {x : Stored} :
    dialect.Gives t (.value v) x ↔ t.scalar? v.reading = some x := by
  -- What is no scalar is good for nothing.
  have hnone : t.scalar? {} = none := by
    cases t with
    | record read? _ _ => cases read? <;> rfl
    | text | flag | span => rfl
  cases v <;> simp [Dialect.Gives, dialect, Node.view, Value.reading, hnone]

theorem not_gives_table {t : DataShape} {fields : Fields} {x : Stored} : ¬dialect.Gives t (.table fields) x := by
  rintro ⟨r, h, -⟩
  cases h

theorem fits_value {t : DataShape} {v : Value} : dialect.Fits t (.value v) ↔ ∃ x, t.scalar? v.reading = some x := by
  cases t with
  | record read? names field => simp [Dialect.Fits, view_ne_null, gives_value, not_isTable_value]
  | text | flag | span => simp [Dialect.Fits, view_ne_null, gives_value]

theorem not_fits_rows {t : DataShape} {current : Fields} {earlier : List Fields} :
    ¬dialect.Fits t (.rows current earlier) := by
  cases t with
  | record read? names field => simp [Dialect.Fits, Dialect.Gives, Dialect.IsTable, dialect, Node.view]
  | text | flag | span => simp [Dialect.Fits, Dialect.Gives, dialect, Node.view]

theorem fits_table {names : List String} {field : String → DataShape} {fields : Fields} :
    dialect.Fits (.record none names field) (.table fields) ↔ ∀ key v, dialect.under? (.table fields) key = some v →
      ∀ name, dialect.field? names key = some name → dialect.Fits (field name) v := by
  rw [Dialect.fits_record]
  simp [Dialect.IsRecord, isTable_table]

namespace Node

/-- A node is orderly if it is an orderly table, or no table at all. -/
def Neat (n : Node) : Prop := ∀ fields, n = .table fields → Orderly fields

theorem Neat.of_lookup {fields : Fields} (h : Orderly fields) {key : String} {node : Node}
    (hnode : fields.lookup key = some node) : node.Neat := by
  rintro inner rfl
  exact h.table hnode

theorem decode?_value (t : DataShape) (v : Value) :
    (Node.value v).decode? t = (t.scalar? v.reading).map fun x => [{ value := x }] := by
  cases t with
  | record read? _ _ => cases read? <;> rfl
  | text | flag | span => rfl

theorem decode?_rows (t : DataShape) (current : Fields) (earlier : List Fields) :
    (Node.rows current earlier).decode? t = none := by
  cases t with
  | record read? _ _ => cases read? <;> rfl
  | text | flag | span => rfl

/-- The entries of a table that are for fields of a record, under the names of these. -/
def entriesFor (names : List String) (fields : Fields) : List (String × Node) :=
  fields.filterMap fun (key, node) => (fieldNamed? names key).map (·, node)

theorem mem_entriesFor {names : List String} {fields : Fields} (h : Orderly fields) {name : String} {node : Node} :
    (name, node) ∈ entriesFor names fields ↔
      ∃ key, dialect.field? names key = some name ∧ dialect.under? (.table fields) key = some node := by
  simp only [under?_table]
  exact mem_filterMap_named h.nodup

theorem decode?_table_eq_some_iff {names : List String} {field : String → DataShape} {fields : Fields}
    {ws : List Write} : (Node.table fields).decode? (.record none names field) = some ws ↔
      ∃ parts, ((entriesFor names fields).mapM fun (name, node) =>
        (node.decode? (field name)).map (List.map (Write.under name))) = some parts ∧ parts.flatten = ws := by
  rw [decode?]
  exact Option.bind_eq_some_iff.trans (exists_congr fun _ => and_congr_right' (by simp))

/-- A table is decoded if all entries for fields are. -/
theorem exists_decode?_table_iff {names : List String} {field : String → DataShape} {fields : Fields} :
    (∃ ws, (Node.table fields).decode? (.record none names field) = some ws) ↔
      ∀ name node, (name, node) ∈ entriesFor names fields → ∃ ws, node.decode? (field name) = some ws := by
  simp only [decode?_table_eq_some_iff]
  rw [exists_comm]
  simp only [exists_and_left, exists_eq', and_true, exists_mapM_eq_some_iff, Option.map_eq_some_iff, Prod.forall]
  exact forall₃_congr fun name node _ => ⟨fun ⟨_, ws, hws, _⟩ => ⟨ws, hws⟩, fun ⟨ws, hws⟩ => ⟨_, ws, hws, rfl⟩⟩

/-- **A node is decoded exactly if it fits the shape.** -/
theorem exists_decode?_iff {t : DataShape} {n : Node} (h : n.Neat) :
    (∃ ws, n.decode? t = some ws) ↔ dialect.Fits t n := by
  induction t generalizing n with
  | record read? names field ih =>
    cases n with
    | value v => simp [decode?_value, fits_value]
    | rows current earlier => simp [decode?_rows, not_fits_rows]
    | table fields =>
      cases read? with
      | some read => simp [decode?, Dialect.Fits, view_ne_null, not_gives_table]
      | none =>
        have hfields : Orderly fields := h fields rfl
        rw [exists_decode?_table_iff, fits_table]
        simp only [mem_entriesFor hfields]
        constructor
        · intro hread key v hv name hname
          exact (ih name (.of_lookup hfields (under?_table .. ▸ hv))).mp (hread name v ⟨key, hname, hv⟩)
        · rintro hfits name v ⟨key, hname, hv⟩
          exact (ih name (.of_lookup hfields (under?_table .. ▸ hv))).mpr (hfits key v hv name hname)
  | text | flag | span =>
    cases n with
    | value v => simp [decode?_value, fits_value]
    | rows current earlier => simp [decode?_rows, not_fits_rows]
    | table fields => simp [decode?, Dialect.Fits, view_ne_null, not_gives_table]

theorem mem_decode?_value {t : DataShape} {v : Value} {ws : List Write} (hws : (Node.value v).decode? t = some ws)
    (w : Write) : w ∈ ws ↔ dialect.Stores t (.value v) w.path w.value := by
  rw [decode?_value] at hws
  obtain ⟨x, hx, rfl⟩ := Option.map_eq_some_iff.mp hws
  obtain ⟨path, value⟩ := w
  cases path with
  | nil => simp [Dialect.Stores, gives_value, hx, eq_comm]
  | cons name path =>
    cases t <;> simp [Dialect.Stores, under?_value]

/-- **Decoding a node stores what the shape says.** -/
theorem mem_decode? {t : DataShape} {n : Node} (h : n.Neat) {ws : List Write} (hws : n.decode? t = some ws)
    (w : Write) : w ∈ ws ↔ dialect.Stores t n w.path w.value := by
  induction t generalizing n ws w with
  | record read? names field ih =>
    cases n with
    | value v => exact mem_decode?_value hws w
    | rows current earlier => simp [decode?_rows] at hws
    | table fields =>
      cases read? with
      | some read => simp [decode?] at hws
      | none =>
        have hfields : Orderly fields := h fields rfl
        obtain ⟨parts, hparts, rfl⟩ := decode?_table_eq_some_iff.mp hws
        rw [Dialect.stores_record, mem_flatten_under (fun name => Node.decode? (field name)) hparts]
        simp only [mem_entriesFor hfields]
        constructor
        · rintro ⟨name, v, ws, u, ⟨key, hname, hv⟩, hread, hu, rfl⟩
          exact ⟨name, u.path, key, v, rfl, hv, hname,
            (ih name (.of_lookup hfields (under?_table .. ▸ hv)) hread u).mp hu⟩
        · rintro ⟨name, rest, key, v, hpath, hv, hname, hstores⟩
          have hneat := Neat.of_lookup hfields (under?_table .. ▸ hv)
          have hentry := (mem_entriesFor hfields).mpr ⟨key, hname, hv⟩
          obtain ⟨ws, hread⟩ := exists_decode?_table_iff.mp ⟨_, hws⟩ name v hentry
          refine ⟨name, v, ws, ⟨rest, w.value⟩, ⟨key, hname, hv⟩, hread, (ih name hneat hread _).mpr hstores, ?_⟩
          obtain ⟨path, value⟩ := w
          obtain rfl : path = name :: rest := hpath
          rfl
  | text | flag | span =>
    cases n with
    | value v => exact mem_decode?_value hws w
    | rows current earlier => simp [decode?_rows] at hws
    | table fields => simp [decode?] at hws

end Node

/-- The keys that are reached are those that lead to something decoded. -/
theorem reaches_eq (t : DataShape) (n : Node) (k : Key) : n.reaches t k = dialect.reaches t n k := by
  induction t generalizing n k with
  | record read? names field ih =>
    cases read? with
    | some read => simp [Node.reaches, Dialect.reaches]
    | none =>
      cases k with
      | nil => simp [Node.reaches, Dialect.reaches]
      | cons key path =>
        rw [Dialect.reaches, field?_eq]
        cases n with
        | table fields =>
          rw [under?_table, Node.reaches]
          cases fieldNamed? names key <;> cases fields.lookup key <;> simp [ih]
        | value v => simp [Node.reaches, under?_value]
        | rows => simp [Node.reaches, under?_rows]
  | text | flag | span => simp [Node.reaches, Dialect.reaches]

theorem keysOfText_eq {text : String} {d : Document} (h : Document.ofText? text = some d) :
    keysOfText text = d.keys := by
  obtain ⟨sts, hsts, hkeys, -⟩ := Document.ofText?_eq h
  rw [keysOfText, hsts, hkeys]
  rfl

theorem document?_eq_some_iff {text : String} {root : Node} {keys : List Key} :
    format.document? text = some (root, keys) ↔
      ∃ d, Document.ofText? text = some d ∧ .table d.fields = root ∧ d.keys = keys := by
  refine Option.map_eq_some_iff.trans (exists_congr fun d => and_congr_right fun hd => ?_)
  rw [keysOfText_eq hd]
  exact Prod.mk.injEq .. ▸ Iff.rfl

theorem neat_root {text : String} {d : Document} (h : Document.ofText? text = some d) :
    (Node.table d.fields).Neat := by
  rintro fields ⟨⟩
  obtain ⟨-, -, -, horderly⟩ := Document.ofText?_eq h
  exact horderly

theorem decode?_eq_some_iff {t : DataShape} {text : String} {r : TomlResult} :
    decode? t text = some r ↔ ∃ d ws, Document.ofText? text = some d ∧ (Node.table d.fields).decode? t = some ws ∧
      r = ⟨ws, (d.keys.filter fun k => !(Node.table d.fields).reaches t k).map keyText⟩ := by
  simp only [decode?, Option.bind_eq_bind, Option.bind_eq_some_iff, Option.pure_def, Option.some.injEq]
  constructor
  · rintro ⟨d, hd, ws, hws, rfl⟩
    exact ⟨d, ws, hd, hws, rfl⟩
  · rintro ⟨d, ws, hd, hws, rfl⟩
    exact ⟨d, hd, ws, hws, rfl⟩

/-- **The TOML decoder does what is documented.** -/
theorem documented_decode? (t : DataShape) : format.Documented t decode? where
  empty := by
    have hd : Document.ofText? "" = some ⟨[], []⟩ := by cbv
    exact ⟨.table [], document?_eq_some_iff.mpr ⟨_, hd, rfl, rfl⟩, rfl⟩
  decodes_iff text := by
    constructor
    · rintro ⟨r, hr⟩
      obtain ⟨d, ws, hd, hws, -⟩ := decode?_eq_some_iff.mp hr
      exact ⟨_, _, document?_eq_some_iff.mpr ⟨d, hd, rfl, rfl⟩, (Node.exists_decode?_iff (neat_root hd)).mp ⟨ws, hws⟩⟩
    · rintro ⟨root, keys, hroot, hfits⟩
      obtain ⟨d, hd, rfl, -⟩ := document?_eq_some_iff.mp hroot
      obtain ⟨ws, hws⟩ := (Node.exists_decode?_iff (neat_root hd)).mpr hfits
      exact ⟨_, decode?_eq_some_iff.mpr ⟨d, ws, hd, hws, rfl⟩⟩
  mem_writes_iff text root keys r h hr w := by
    obtain ⟨d, hd, rfl, -⟩ := document?_eq_some_iff.mp h
    obtain ⟨d', ws, hd', hws, rfl⟩ := decode?_eq_some_iff.mp hr
    obtain rfl := Option.some.inj (hd.symm.trans hd')
    exact Node.mem_decode? (neat_root hd) hws w
  undecoded_eq text root keys r h hr := by
    obtain ⟨d, hd, rfl, rfl⟩ := document?_eq_some_iff.mp h
    obtain ⟨d', ws, hd', -, rfl⟩ := decode?_eq_some_iff.mp hr
    obtain rfl := Option.some.inj (hd.symm.trans hd')
    simp only [reaches_eq]
    rfl

end Toml

/-! ### YAML -/

namespace Yaml

/-- What a node is. An alias is what it stands for. A mapping has its own entries and those it
takes in, and is a table if its keys are texts or null. -/
def Node.view (n : Node) : View Node :=
  match n.resolved? with
  | some (.scalar text isPlain tag?) =>
    match scalarValue? text isPlain tag? with
    | some (kind, text) => if kind = .null then .null else .scalar (scalarReading text kind)
    | none => .other
  | some (.mapping _) =>
    if n.entries.all (·.1.name?.isSome) then .table (n.entries.map fun (k, v) => (k.name?.join, v)) else .other
  | _ => .other

/-- YAML as it is read here. -/
def format : YamlFormat where
  Node := Node
  view := Node.view
  document? := document?

/-- How nodes are decoded strictly. -/
def dialect : Dialect Node := { view := Node.view, agrees := (· == ·), opens := true, strict := true }

@[simp] theorem dialect_opens : dialect.opens = true := rfl

@[simp] theorem dialect_strict : dialect.strict = true := rfl

theorem field?_eq_some_iff {names : List String} {key name : String} :
    dialect.field? names key = some name ↔ name ∈ names ∧ key = name := by
  refine (Dialect.field?_eq_some_iff (D := dialect) (by simp [dialect]) ?_).trans (by simp [dialect])
  simp only [dialect, beq_iff_eq]
  rintro a - b - rfl rfl
  rfl

theorem lookup_named (key : String) : ∀ entries : List (Node × Node),
    (entries.map fun (k, v) => (k.name?.join, v)).lookup (some key) = (named entries).lookup key
  | [] => rfl
  | (k, v) :: entries => by
    rw [List.map_cons, List.lookup_cons, lookup_named key entries, ← List.singleton_append, named_append,
      List.lookup_append]
    cases hname : k.name?.join with
    | none => simp [named, hname]
    | some name => cases h : key == name <;> simp [named, hname, h, List.lookup_cons]

namespace Node

variable {n : Node} {steps : Nat}

/-- The fields that are found in a mapping are what stands under its keys. -/
theorem table_of_fields? {pairs : List (Node × Node)} {fs : List (String × Node)}
    (hn : n.target? steps = some (.mapping pairs)) (hfs : fields? steps pairs = some fs) :
    dialect.IsTable n ∧ ∀ key v, dialect.under? n key = some v ↔ (key, v) ∈ fs := by
  have hresolved := resolved?_of_target? hn
  obtain ⟨hlegible, hfinds⟩ := fields?_eq hfs
  rw [entries_of_resolved? hresolved] at hlegible hfinds
  have hview : dialect.view n = .table (n.entries.map fun (k, v) => (k.name?.join, v)) := by
    show n.view = _
    rw [view, hresolved]
    exact if_pos (List.all_eq_true.mpr hlegible)
  refine ⟨⟨_, hview⟩, fun key v => ?_⟩
  rw [Dialect.under?, hview, hfinds.mem_iff]
  exact Eq.congr_left (lookup_named key n.entries)

/-- A scalar is null and stores nothing, or gives the one value that it stores. -/
theorem scalarWrites?_eq {t : DataShape} {text : String} {isPlain : Bool} {tag? : Option String} {ws : List Write}
    (hn : n.target? steps = some (.scalar text isPlain tag?)) (hws : scalarWrites? t text isPlain tag? = some ws) :
    (dialect.view n = .null ∧ ws = []) ∨
      ∃ r x, dialect.view n = .scalar r ∧ t.scalar? r = some x ∧ ws = [{ value := x }] := by
  have hresolved := resolved?_of_target? hn
  obtain ⟨⟨kind, text'⟩, hvalue, hws⟩ := Option.bind_eq_some_iff.mp hws
  have hview : dialect.view n = if kind = .null then .null else .scalar (scalarReading text' kind) := by
    show n.view = _
    rw [view, hresolved]
    simp only [hvalue]
  rw [hview]
  dsimp only at hws
  split at hws
  · next hnull => exact .inl ⟨if_pos hnull, (Option.some.inj hws).symm⟩
  · next hnull =>
    obtain ⟨x, hx, rfl⟩ := Option.map_eq_some_iff.mp hws
    exact .inr ⟨_, x, if_neg hnull, hx, rfl⟩

/-- What is no table stores what it gives, and nothing below. -/
theorem stores_of_scalarWrites? {t : DataShape} {text : String} {isPlain : Bool} {tag? : Option String}
    {ws : List Write} (hn : n.target? steps = some (.scalar text isPlain tag?))
    (hws : scalarWrites? t text isPlain tag? = some ws) :
    dialect.Fits t n ∧ ∀ w, w ∈ ws ↔ dialect.Stores t n w.path w.value := by
  have hscalar := scalarWrites?_eq hn hws
  have hunder : ∀ key, dialect.under? n key = none := by
    obtain ⟨hnull, -⟩ | ⟨r, x, hview, -⟩ := hscalar
    · exact Dialect.under?_eq_none_of_null hnull
    · exact Dialect.under?_eq_none_of_scalar hview
  constructor
  · have hgives : dialect.view n = .null ∨ ∃ x, dialect.Gives t n x := by
      obtain ⟨hnull, -⟩ | ⟨r, x, hview, hx, -⟩ := hscalar
      · exact .inl hnull
      · exact .inr ⟨x, r, hview, hx⟩
    cases t with
    | record read? names field => exact hgives.imp id .inl
    | text | flag | span => exact hgives
  · rintro ⟨path, x⟩
    cases path with
    | nil =>
      rw [Dialect.Stores, Dialect.Gives]
      obtain ⟨hnull, rfl⟩ | ⟨r, y, hview, hy, rfl⟩ := hscalar
      · simp [hnull]
      · simp [hview, hy, eq_comm]
    | cons name path =>
      have hnot : ¬dialect.Stores t n (name :: path) x := by cases t <;> simp [Dialect.Stores, hunder]
      obtain ⟨-, rfl⟩ | ⟨r, y, -, -, rfl⟩ := hscalar <;> simp [hnot]

/-- A node that is decoded is a scalar, or a mapping that is decoded field by field. -/
theorem decode?_cases {t : DataShape} {ws : List Write} (h : n.decode? true steps t = some ws) :
    (∃ text isPlain tag?, n.target? steps = some (.scalar text isPlain tag?) ∧
      scalarWrites? t text isPlain tag? = some ws) ∨
    ∃ read? names field pairs fs parts, t = .record read? names field ∧ n.target? steps = some (.mapping pairs) ∧
      fields? steps pairs = some fs ∧ parts.flatten = ws ∧
      fs.mapM (fun (name, v) => (if name ∈ names then decode? true steps (field name) v else none).map
        (List.map (Write.under name))) = some parts := by
  cases t with
  | record read? names field =>
    rw [decode?] at h
    obtain ⟨m, hm, hstep⟩ := Option.bind_eq_some_iff.mp h
    cases m with
    | scalar text isPlain tag? => exact .inl ⟨text, isPlain, tag?, hm, hstep⟩
    | mapping pairs =>
      obtain ⟨fs, hfs, hstep⟩ := Option.bind_eq_some_iff.mp hstep
      obtain ⟨parts, hparts, hstep⟩ := Option.bind_eq_some_iff.mp hstep
      refine .inr ⟨read?, names, field, pairs, fs, parts, rfl, hm, hfs, Option.some.inj hstep, ?_⟩
      rw [← hparts]
      congr 1
      funext ⟨name, v⟩
      by_cases hname : name ∈ names <;> simp [hname]
    | _ => cases hstep
  | text | flag | span =>
    change (n.target? steps).bind _ = some ws at h
    obtain ⟨m, hm, hstep⟩ := Option.bind_eq_some_iff.mp h
    cases m with
    | scalar text isPlain tag? => exact .inl ⟨text, isPlain, tag?, hm, hstep⟩
    | _ => cases hstep

/-- **A node that is decoded fits the shape, and stores what the shape says.** -/
theorem decode?_eq {t : DataShape} {ws : List Write} (h : n.decode? true steps t = some ws) :
    dialect.Fits t n ∧ ∀ w, w ∈ ws ↔ dialect.Stores t n w.path w.value := by
  induction t generalizing n ws with
  | text | flag | span =>
    obtain ⟨text, isPlain, tag?, hn, hws⟩ | ⟨_, _, _, _, _, _, ht, -⟩ := decode?_cases h
    · exact stores_of_scalarWrites? hn hws
    · cases ht
  | record read? names field ih =>
    obtain ⟨text, isPlain, tag?, hn, hws⟩ | ⟨_, _, _, pairs, fs, parts, ht, hn, hfs, rfl, hparts⟩ := decode?_cases h
    · exact stores_of_scalarWrites? hn hws
    cases ht
    obtain ⟨htable, hunder⟩ := table_of_fields? hn hfs
    have hread : ∀ name v, (name, v) ∈ fs → name ∈ names ∧ ∃ ws, v.decode? true steps (field name) = some ws := by
      intro name v hv
      obtain ⟨_, hpart⟩ := exists_mapM_eq_some_iff.mp ⟨_, hparts⟩ (name, v) hv
      obtain ⟨ws, hws, -⟩ := Option.map_eq_some_iff.mp hpart
      by_cases hname : name ∈ names
      · exact ⟨hname, ws, by simpa [hname] using hws⟩
      · simp [hname] at hws
    refine ⟨.inr (.inr ⟨htable, fun _ => rfl, fun key v hv => ⟨fun _ => ?_, fun name hname => ?_⟩⟩), ?_⟩
    · obtain ⟨hname, -⟩ := hread key v ((hunder key v).mp hv)
      exact Option.isSome_iff_exists.mpr ⟨key, field?_eq_some_iff.mpr ⟨hname, rfl⟩⟩
    · obtain ⟨-, rfl⟩ := field?_eq_some_iff.mp hname
      obtain ⟨-, ws, hws⟩ := hread key v ((hunder key v).mp hv)
      exact (ih key hws).1
    · rintro ⟨path, x⟩
      rw [mem_flatten_under (fun name v => if name ∈ names then decode? true steps (field name) v else none) hparts]
      cases path with
      | nil =>
        obtain ⟨entries, hview⟩ := htable
        simp [Dialect.Stores, Dialect.Gives, hview, Write.under]
      | cons name path =>
        simp only [Dialect.Stores, dialect_opens, implies_true, true_and, field?_eq_some_iff]
        constructor
        · rintro ⟨_, v, ws, ⟨_, _⟩, hv, hws, hu, ⟨⟩⟩
          obtain ⟨hname, -⟩ := hread name v hv
          rw [if_pos hname] at hws
          exact ⟨name, v, (hunder name v).mpr hv, ⟨hname, rfl⟩, ((ih name hws).2 _).mp hu⟩
        · rintro ⟨_, v, hv, ⟨hname, rfl⟩, hstores⟩
          have hmem := (hunder _ v).mp hv
          obtain ⟨-, ws, hws⟩ := hread _ v hmem
          exact ⟨_, v, ws, ⟨path, x⟩, hmem, by rw [if_pos hname, hws], ((ih _ hws).2 ⟨path, x⟩).mpr hstores, rfl⟩

end Node

theorem decode_eq_ok_iff {t : DataShape} {text : String} {ws : List Write} :
    decode true t text = .ok ws ↔
      ∃ n, document? text = some (some n) ∧ n.decode? true (text.length + 2) t = some ws := by
  rw [decode]
  split
  · next h => simp [h]
  · next h => simp [h]
  · next n h => cases hws : n.decode? true (text.length + 2) t <;> simp [h, hws]

theorem decode_eq_endOfInput_iff {t : DataShape} {text : String} :
    decode true t text = .error .endOfInput ↔ document? text = some none := by
  rw [decode]
  split
  · next h => simp [h]
  · next h => simp [h]
  · next n h => cases n.decode? true (text.length + 2) t <;> simp [h]

/-- **The YAML decoder does what is documented.** -/
theorem documented_decode (t : DataShape) : format.Documented t decode where
  empty := by
    have hnone : (document? "").map Option.isNone = some true := by decide +kernel
    obtain ⟨n?, hn, hnone⟩ := Option.map_eq_some_iff.mp hnone
    exact hn.trans (congrArg some (Option.isNone_iff_eq_none.mp hnone))
  endOfInput_iff text := decode_eq_endOfInput_iff
  fits text ws h := by
    obtain ⟨n, hn, hws⟩ := decode_eq_ok_iff.mp h
    exact ⟨n, hn, (Node.decode?_eq hws).1⟩
  mem_writes_iff text root ws hroot h w := by
    obtain ⟨n, hn, hws⟩ := decode_eq_ok_iff.mp h
    obtain rfl := Option.some.inj (Option.some.inj (hn.symm.trans hroot))
    exact (Node.decode?_eq hws).2 w

end Yaml

/-- The formats as they are read here. -/
def Formats.standard : Formats := ⟨Toml.format, Yaml.format⟩

/-- **The decoders that the program works with do what is documented.** -/
theorem Decoders.documented_standard (t : DataShape) : Decoders.standard.Documented .standard t :=
  ⟨Toml.documented_decode? t, Yaml.documented_decode t⟩

end Pseudocode
