/-
# The layers of settings

The settings to work with come in layers: the default values, over them the file, over it
the environment, and at last the flags. The settings can be loaded exactly if the file that
is used reads as a document of the format that the end of its name tells, the environment has
a truth value for colour if it has any, and what comes of the layers is valid
(`Settings.load_eq_ok_iff`); and then each setting has the value of the topmost layer that gives
one. What the file gives is what its text assigns, as the decoders do what is documented. What
is valid stays so under the flags, so that no part of the program meets a level or a format it
does not know (`Program.setup_eq_ok`). If the settings cannot be loaded, no command is carried
out.

Key definitions: `usedFile?`, `FileGives`, `Environment.given?`, `SettingsOf`.
Key theorems: `Settings.fault?_eq_none_iff`, `Environment.assigned?_overrides`,
`Settings.load_eq_ok_iff`, `Program.setup_eq_ok`, `settings_are_layered`.
-/
import Mathlib
import Pseudocode.Program
import Pseudocode.Proofs.FileEndings
import Pseudocode.Proofs.SettingsDocuments

namespace Pseudocode

open CommandLine

/-! ### The layers -/

/-- The file that is used: the first of three names that is not empty. The last one counts
only if such a file is found. -/
def usedFile? (disk : Disk) (env : Environment) (path : String) : Option String :=
  [path, (env.lookup "AQA_CONFIG").getD "", if disk.has "aqa.toml" then "aqa.toml" else ""].find? (· ≠ "")

/-- The settings that a file gives, if there is one: it can be read, and a decoder of the format
that the end of its name tells makes them of its text. -/
inductive FileGives (lib : Decoders) (disk : Disk) : Option String → Settings → Prop where
  | noFile : FileGives lib disk none .default
  | file {path text : String} {f : Format} {base : Settings} : disk.read path = .ok text → TellsFormat path f →
      f.Accepts lib text base → FileGives lib disk (some path) base

namespace Environment

/-- What the environment gives a setting. -/
def given? (env : Environment) : Setting → Option Assignment
  | .logLevel => (env.get? "AQA_LOG_LEVEL").map .logLevel
  | .color => ((env.get? "AQA_COLOR").bind truthOf?).map .color
  | .astFormat => (env.get? "AQA_AST_FORMAT").map .astFormat
  | _ => none

/-- The word for colour in the environment, if there is one, is one for a truth value. -/
def HasTruth (env : Environment) : Prop := ∀ word, env.get? "AQA_COLOR" = some word → (truthOf? word).isSome

end Environment

/-- The settings have what the environment gives them, else what the file does. -/
def SettingsOf (env : Environment) (base s : Settings) : Prop :=
  ∀ x, s.get x = (env.given? x).getD (base.get x)

/-! ### Valid settings -/

namespace Settings

theorem fault?_eq_none_iff (s : Settings) : s.fault? = none ↔
    (Level.ofName? s.logLevel).isSome ∧ (TreeFormat.ofName? s.astFormat).isSome ∧
      ¬ s.debounce.nanoseconds < 0 := by
  unfold fault?
  split
  · next h => simp [Option.isNone_iff_eq_none.mp h]
  · next h =>
    split
    · next h' => simp [Option.isNone_iff_eq_none.mp h']
    · next h' =>
      split
      · next h'' => simp [h'']
      · next h'' => simp_all [Option.isSome_iff_ne_none]

/-- The level of valid settings is the one that is named. -/
theorem ofName?_level {s : Settings} (h : s.fault? = none) : Level.ofName? s.logLevel = some s.level := by
  obtain ⟨l, hl⟩ := Option.isSome_iff_exists.mp ((fault?_eq_none_iff s).mp h).1
  rw [level, hl]
  rfl

end Settings

theorem Level.ofName?_debug : Level.ofName? "debug" = some .debug := by cbv

/-- The flags keep settings valid. -/
theorem CommandLine.Options.fault?_settings (o : Options) {s : Settings} (h : s.fault? = none) :
    (o.settings s).fault? = none := by
  rw [Settings.fault?_eq_none_iff] at h ⊢
  obtain ⟨hlevel, hformat, hdebounce⟩ := h
  refine ⟨?_, hformat, hdebounce⟩
  unfold Options.settings
  cases o.verbose with
  | true => simp [Level.ofName?_debug]
  | false => simpa using hlevel

/-- The name of a format. -/
def TreeFormat.name : TreeFormat → String
  | text => "text"
  | json => "json"
  | yaml => "yaml"

theorem TreeFormat.ofName?_eq_some_iff (name : String) (format : TreeFormat) :
    ofName? name = some format ↔ name = format.name := by
  constructor
  · unfold ofName?
    split <;> rintro ⟨⟩ <;> rfl
  · rintro rfl
    cases format <;> rfl

/-! ### Loading -/

theorem settingsFile?_eq (disk : Disk) (env : Environment) (path : String) :
    settingsFile? disk env path = usedFile? disk env path := by
  unfold settingsFile? usedFile?
  by_cases hpath : path = ""
  · have hname : env.get? "AQA_CONFIG" = ((env.lookup "AQA_CONFIG").getD "" |> fun name =>
        if name = "" then none else some name) := by
      unfold Environment.get?
      cases env.lookup "AQA_CONFIG" with
      | none => rfl
      | some name => by_cases h : name = "" <;> simp [Option.filter, h]
    subst hpath
    rw [hname]
    by_cases hempty : (env.lookup "AQA_CONFIG").getD "" = ""
    · by_cases hfile : disk.has "aqa.toml" <;> simp [hempty, hfile, defaultFile]
    · simp [hempty]
  · simp [hpath]

/-- The settings in a file are those that it gives. -/
theorem Settings.ofFile?_eq_ok_iff (lib : Decoders) (disk : Disk) (path? : Option String) (s : Settings) :
    ofFile? lib disk path? = .ok s ↔ FileGives lib disk path? s := by
  cases path? with
  | none =>
    constructor
    · rintro ⟨⟩
      exact .noFile
    · rintro ⟨⟩
      rfl
  | some path =>
    have hformat : TellsFormat path (Format.ofPath path) := (tellsFormat_iff path _).mpr rfl
    simp only [ofFile?, ofFile, FormatChoice.forPath]
    constructor
    · intro h
      cases hread : disk.read path with
      | error fault => cases fault <;> simp [hread] at h
      | ok text =>
        simp only [hread] at h
        cases htext : ofText lib (.given (Format.ofPath path)) text with
        | error fault => simp [htext, Except.mapError] at h
        | ok base =>
          simp only [htext, Except.mapError, Except.ok.injEq] at h
          subst h
          exact .file hread hformat (ofText_eq_ok_iff.mp htext)
    · rintro (_ | ⟨hread, htells, haccepts⟩)
      obtain rfl := (tellsFormat_iff path _).mp htells
      simp [hread, ofText_eq_ok_iff.mpr haccepts, Except.mapError]

/-- The environment is at fault exactly if its word for colour is none for a truth value. -/
theorem Environment.overrides_snd_eq_none_iff (env : Environment) : env.overrides.2 = none ↔ env.HasTruth := by
  unfold overrides HasTruth
  cases env.get? "AQA_COLOR" with
  | none => simp
  | some word => cases h : truthOf? word <;> simp [h]

/-- An assignment that may be there is for one setting only. -/
theorem assigned?_toList {a? : Option Assignment} {y : Setting} (h : ∀ a ∈ a?, a.setting = y) (x : Setting) :
    assigned? a?.toList x = if y = x then a? else none := by
  cases a? with
  | none => simp [assigned?]
  | some a =>
    obtain rfl := h a rfl
    by_cases hx : a.setting = x <;> simp [assigned?, hx]

/-- Without a fault the environment gives each setting what it assigns to it. -/
theorem Environment.assigned?_overrides {env : Environment} (h : env.HasTruth) (x : Setting) :
    assigned? env.overrides.1 x = env.given? x := by
  have hassigns : env.overrides.1 =
      (env.given? .logLevel).toList ++ ((env.given? .color).toList ++ (env.given? .astFormat).toList) := by
    unfold overrides given?
    cases hcolor : env.get? "AQA_COLOR" with
    | none => simp
    | some word =>
      obtain ⟨b, hb⟩ := Option.isSome_iff_exists.mp (h word hcolor)
      simp [hb]
  have hsetting : ∀ y, ∀ a ∈ env.given? y, a.setting = y := by
    intro y a ha
    cases y <;> simp only [given?, Option.mem_def, Option.map_eq_some_iff, reduceCtorEq] at ha <;>
      obtain ⟨_, -, rfl⟩ := ha <;> rfl
  rw [hassigns, assigned?_append, assigned?_append, assigned?_toList (hsetting _), assigned?_toList (hsetting _),
    assigned?_toList (hsetting _)]
  cases x <;> simp <;> rfl

theorem Settings.settingsOf_override {env : Environment} (h : env.HasTruth) (base : Settings) :
    SettingsOf env base (base.override env).1 := by
  intro x
  rw [override, get_foldl_assign, Environment.assigned?_overrides h]

/-- **Settings can be loaded exactly if the file and the environment can be read and what comes
of them is valid.** Then they are what the layers make of them. -/
theorem Settings.load_eq_ok_iff (lib : Decoders) (disk : Disk) (env : Environment) (path : String) (s : Settings) :
    load lib disk env path = .ok s ↔
      ∃ base, FileGives lib disk (usedFile? disk env path) base ∧ env.HasTruth ∧ SettingsOf env base s ∧
        s.fault? = none := by
  rw [load, settingsFile?_eq]
  constructor
  · intro h
    cases hfile : ofFile? lib disk (usedFile? disk env path) with
    | error fault => simp [hfile, bind, Except.bind] at h
    | ok base =>
      have hgives := (ofFile?_eq_ok_iff ..).mp hfile
      simp only [hfile, bind, Except.bind, override] at h
      cases hfault : env.overrides.2 with
      | some fault => simp [hfault] at h
      | none =>
        have htruth := env.overrides_snd_eq_none_iff.mp hfault
        simp only [hfault] at h
        split at h
        · simp at h
        · next hvalid =>
          obtain rfl := Except.ok.inj h
          exact ⟨base, hgives, htruth, settingsOf_override htruth base, hvalid⟩
  · rintro ⟨base, hgives, htruth, hs, hvalid⟩
    obtain rfl : s = (base.override env).1 := ext_get fun x => by rw [hs x, settingsOf_override htruth base x]
    have hfault := env.overrides_snd_eq_none_iff.mpr htruth
    rw [override] at hvalid
    simp [(ofFile?_eq_ok_iff ..).mpr hgives, bind, Except.bind, override, hfault, hvalid]

/-- A file that is used and cannot be read is an error. -/
theorem Settings.load_of_read_error {lib : Decoders} {disk : Disk} {env : Environment} {path file : String}
    {fault : FileFault} (hfile : usedFile? disk env path = some file) (hread : disk.read file = .error fault) :
    load lib disk env path = .error (.notFound file) ∨ load lib disk env path = .error (.unreadable file fault) := by
  rw [load, settingsFile?_eq, hfile]
  cases fault <;> simp [ofFile?, ofFile, hread, bind, Except.bind]

/-! ### After the flags -/

/-- The message on a name that is none of a format. -/
def unknownFormat (name : String) : String := "unknown format " ++ quoteText name ++ ": want text, json, or yaml"

/-- What holds of a console once the settings are loaded and the flags are put over them. -/
structure SetUp (w : World) (o : Options) (c : Console) : Prop where
  settings : ∃ s, Settings.load w.decoders w.disk w.env o.config = .ok s ∧ c.settings = o.settings s
  valid : c.settings.fault? = none
  verbose : o.verbose = true → c.settings.level = .debug
  /-- The level is the one that is named. -/
  level : Level.ofName? c.settings.logLevel = some c.settings.level
  /-- A run that shows its tree does so in the format that is named, -/
  run_format : ∀ t, (o.trace c).tree? = some t → ∃ format, t = .full format ∧ c.settings.astFormat = format.name
  /-- and so does the command that prints the tree. It refuses a name that the flags give if
  it is none of a format. -/
  ast_format : ∀ file,
    (∃ format, (if o.format = "" then c.settings.astFormat else o.format) = format.name ∧
      Program.ast w c o file = c.treeOfFile w.disk file format) ∨
    (o.format ≠ "" ∧ (∀ format : TreeFormat, o.format ≠ format.name) ∧
      Program.ast w c o file = ({}, .failed (unknownFormat o.format)))

theorem Console.ofName?_treeFormat {c : Console} (h : c.settings.fault? = none) :
    c.settings.astFormat = c.treeFormat.name := by
  obtain ⟨format, hformat⟩ := Option.isSome_iff_exists.mp ((Settings.fault?_eq_none_iff _).mp h).2.1
  rw [treeFormat, hformat]
  exact (TreeFormat.ofName?_eq_some_iff _ _).mp hformat

/-- The command that prints a tree takes the name of a format from the flags, else from the
settings, whose name is one. -/
theorem Program.ast_cases {w : World} {c : Console} {o : Options} (h : c.settings.astFormat = c.treeFormat.name)
    (file : String) :
    (∃ format, (if o.format = "" then c.settings.astFormat else o.format) = format.name ∧
      ast w c o file = c.treeOfFile w.disk file format) ∨
    (o.format ≠ "" ∧ (∀ format : TreeFormat, o.format ≠ format.name) ∧
      ast w c o file = ({}, .failed (unknownFormat o.format))) := by
  unfold ast
  simp only [String.isEmpty_iff]
  by_cases hempty : o.format = ""
  · have hname := (TreeFormat.ofName?_eq_some_iff _ _).mpr h
    rw [if_pos hempty, hname]
    exact .inl ⟨c.treeFormat, h, rfl⟩
  · rw [if_neg hempty]
    cases hname : TreeFormat.ofName? o.format with
    | some format =>
      have hformat := (TreeFormat.ofName?_eq_some_iff _ _).mp hname
      exact .inl ⟨format, hformat, rfl⟩
    | none =>
      have hnone : ∀ format : TreeFormat, o.format ≠ format.name := fun format hformat => by
        simp [(TreeFormat.ofName?_eq_some_iff _ _).mpr hformat] at hname
      exact .inr ⟨hempty, hnone, rfl⟩

theorem Program.setup_eq_ok {w : World} {o : Options} {c : Console} (h : setup w o = .ok c) : SetUp w o c := by
  rw [setup] at h
  cases hload : Settings.load w.decoders w.disk w.env o.config with
  | error fault => simp [hload, Except.map] at h
  | ok s =>
    obtain ⟨-, -, -, -, hs⟩ := (Settings.load_eq_ok_iff ..).mp hload
    simp only [hload, Except.map, Except.ok.injEq] at h
    subst h
    have hvalid := o.fault?_settings hs
    have hformat := Console.ofName?_treeFormat (c := ⟨o.settings s, w.colours, w.timing⟩) hvalid
    refine ⟨⟨s, hload, rfl⟩, hvalid, fun hv => ?_, Settings.ofName?_level hvalid, fun t ht => ?_, fun file => ?_⟩
    · simp [Settings.level, Options.settings, hv, Level.ofName?_debug]
    · simp only [Options.trace] at ht
      split at ht
      · exact ⟨_, (Option.some.inj ht).symm, hformat⟩
      · simp at ht
    · exact ast_cases hformat file

/-- **Settings come in layers and stay valid.** They can be loaded exactly if the file that is
used, if any, can be read as a document of the format that its name tells, the environment has
a truth value for colour or no word at all, and what the layers make of them is valid. What a
file gives is what its text assigns, and the defaults. A file that cannot be read is an error.
Once they are loaded, the flags keep them valid, and no level or format is met that has no
name. Otherwise no command is carried out. -/
theorem settings_are_layered (w : World) {F : Formats} (h : w.decoders.Documented F Settings.shape) (o : Options) :
    (∀ s, Settings.load w.decoders w.disk w.env o.config = .ok s ↔
      ∃ base, FileGives w.decoders w.disk (usedFile? w.disk w.env o.config) base ∧ w.env.HasTruth ∧
        SettingsOf w.env base s ∧ s.fault? = none) ∧
    (∀ path text f base, w.disk.read path = .ok text → TellsFormat path f → f.Accepts w.decoders text base →
      f.Strict F text ∧ base.DrawnFrom (f.Assigns F text) ∧
        (f.NamesOnce F text → base.MadeOf (f.Assigns F text))) ∧
    (∀ file fault, usedFile? w.disk w.env o.config = some file → w.disk.read file = .error fault →
      Settings.load w.decoders w.disk w.env o.config = .error (.notFound file) ∨
        Settings.load w.decoders w.disk w.env o.config = .error (.unreadable file fault)) ∧
    (∀ c, Program.setup w o = .ok c → SetUp w o c) ∧
    ∀ fault, Settings.load w.decoders w.disk w.env o.config = .error fault →
      Program.setup w o = .error fault ∧
      ∀ words command arguments, Request.ofWords words = .perform command o arguments →
        Program.execute w words = { outcome := .failed ("failed to load config: " ++ fault.message) } := by
  refine ⟨Settings.load_eq_ok_iff _ _ _ _, fun _ _ _ _ _ _ => Settings.drawnFrom_of_accepts h,
    fun _ _ => Settings.load_of_read_error, fun _ => Program.setup_eq_ok, fun fault hfault => ?_⟩
  have hsetup : Program.setup w o = .error fault := by rw [Program.setup, hfault]; rfl
  refine ⟨hsetup, fun words command arguments hwords => ?_⟩
  rw [Program.execute, hwords]
  simp only [hsetup]

/-- A prompt and a level in YAML. -/
def promptText : String := "repl: \x7bprompt: '> '\x7d\nlog: \x7blevel: error\x7d\n"

/-- A TOML text that asks for the tokens. -/
def tokensText : String := "[trace]\ntokens = true\n"

/-- A world with a YAML file, whose name ends in capital letters, and the TOML file that is used
if no other is named. The environment names a level and has a word for colour. -/
def spareWorld : World where
  disk :=
    { read := fun path =>
        if path = "A.YML" then .ok promptText else if path = "aqa.toml" then .ok tokensText else .error .missing
      refuses := fun _ => none
      has := fun path => path == "A.YML" || path == "aqa.toml" }
  env := [("AQA_LOG_LEVEL", "Info"), ("AQA_COLOR", "f")]

theorem tellsFormat_spareWorld : TellsFormat "A.YML" .yaml ∧ TellsFormat "aqa.toml" .toml := by
  have hyaml : Format.yaml = Format.ofPath "A.YML" := by cbv
  have htoml : Format.toml = Format.ofPath "aqa.toml" := by cbv
  exact ⟨(tellsFormat_iff ..).mpr hyaml, (tellsFormat_iff ..).mpr htoml⟩

theorem accepts_promptText :
    Format.yaml.Accepts .standard promptText { logLevel := "error", prompt := "> " } := by
  have hwrites : Yaml.decode true Settings.shape promptText =
      .ok [⟨["repl", "prompt"], .text "> "⟩, ⟨["log", "level"], .text "error"⟩] := by decide +kernel
  exact .inl ⟨_, hwrites, by decide +kernel⟩

theorem accepts_tokensText : Format.toml.Accepts .standard tokensText { traceTokens := true } := by
  have hread : Toml.read? tokensText = some [.header ["trace"], .assign ["tokens"] (.flag true)] := by cbv
  have htext : Toml.Document.ofText? tokensText = some
      { fields := [("trace", .table [("tokens", .value (.flag true))])], keys := [["trace"], ["trace", "tokens"]] } := by
    rw [Toml.Document.ofText?, hread]
    cbv
  refine ⟨[⟨["trace", "tokens"], .flag true⟩], ?_, by decide +kernel⟩
  change Toml.decode? Settings.shape tokensText = _
  rw [Toml.decode?, htext]
  decide +kernel

/-- The level and colour come from the environment there, also where the file that is used has
a level. The prompt comes from the YAML file that is named, the tokens from the TOML file if
none is named, and the rest from the default values. A flag goes over the level. Another file
is not there. -/
theorem spareWorld_is_layered :
    TellsFormat "A.YML" .yaml ∧ TellsFormat "aqa.toml" .toml ∧
    (∃ base, FileGives .standard spareWorld.disk (some "A.YML") base ∧ base.logLevel = "error" ∧
      base.MadeOf (Format.yaml.Assigns .standard promptText)) ∧
    (∃ s, Settings.load .standard spareWorld.disk spareWorld.env "A.YML" = .ok s ∧ s.logLevel = "Info" ∧
      s.color = false ∧ s.prompt = "> " ∧ s.traceTokens = false) ∧
    (∃ s, Settings.load .standard spareWorld.disk spareWorld.env "" = .ok s ∧ s.logLevel = "Info" ∧
      s.color = false ∧ s.prompt = "aqa> " ∧ s.traceTokens = true) ∧
    (∃ c, Program.setup spareWorld { config := "A.YML", verbose := true } = .ok c ∧ c.settings.level = .debug) ∧
    ∃ fault, Program.setup spareWorld { config := "b.yaml" } = .error fault := by
  obtain ⟨hyaml, htoml⟩ := tellsFormat_spareWorld
  have hlayered := settings_are_layered spareWorld (Decoders.documented_standard Settings.shape)
  have hlevel : Level.ofName? "Info" = some .info := by cbv
  have htruth : spareWorld.env.HasTruth := fun word hword => by cases hword; rfl
  have hbase : FileGives .standard spareWorld.disk (some "A.YML") { logLevel := "error", prompt := "> " } :=
    .file rfl hyaml accepts_promptText
  have hmade := ((hlayered {}).2.1 "A.YML" _ _ _ rfl hyaml accepts_promptText).2.2 trivial
  have hnamed := ((hlayered { config := "A.YML", verbose := true }).1
    { logLevel := "Info", color := false, prompt := "> " }).mpr
      ⟨_, by rw [← settingsFile?_eq]; exact hbase, htruth, fun x => by cases x <;> rfl,
        by simp [Settings.fault?, hlevel, TreeFormat.ofName?]⟩
  have hfound := ((hlayered {}).1 { logLevel := "Info", color := false, traceTokens := true }).mpr
    ⟨_, by rw [← settingsFile?_eq]; exact .file rfl htoml accepts_tokensText, htruth, fun x => by cases x <;> rfl,
      by simp [Settings.fault?, hlevel, TreeFormat.ofName?]⟩
  obtain ⟨c, hsetup⟩ : ∃ c, Program.setup spareWorld { config := "A.YML", verbose := true } = .ok c :=
    ⟨_, by rw [Program.setup, hnamed]; rfl⟩
  have hmissing := (hlayered { config := "b.yaml" }).2.2.1 "b.yaml" .missing (by rw [← settingsFile?_eq]; rfl) rfl
  refine ⟨hyaml, htoml, ⟨_, hbase, rfl, hmade⟩, ⟨_, hnamed, rfl, rfl, rfl, rfl⟩, ⟨_, hfound, rfl, rfl, rfl, rfl⟩,
    ⟨c, hsetup, ((hlayered _).2.2.2.1 c hsetup).verbose rfl⟩, ?_⟩
  obtain hmissing | hmissing := hmissing <;>
    exact ⟨_, ((hlayered { config := "b.yaml" }).2.2.2.2 _ hmissing).1⟩

end Pseudocode
