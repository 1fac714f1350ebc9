/-
# The end of a name tells the format

A file of settings is in YAML exactly if its name ends in `.yaml` or `.yml`, each letter small or
capital (`EndsInYaml`), and in TOML otherwise. The program looks at the last name of the path
from its last dot on, in small letters. As neither ending has a slash in it, or a dot behind
its first one, it is all the same where the names of the path are divided
(`Path.extension_eq_iff`).

Key definitions: `InAnyCase`, `EndsInYaml`, `TellsFormat`.
Key theorems: `lowerCase_eq_iff`, `Path.extension_eq_iff`, `tellsFormat_iff`.
-/
import Mathlib
import Pseudocode.Settings.Load

namespace Pseudocode

/-- A text is a word of small letters in any letter case. -/
def InAnyCase (word s : String) : Prop := List.Forall₂ (fun d c => c = d ∨ c = d.toUpper) word.toList s.toList

/-- A path ends like the name of a YAML file. -/
def EndsInYaml (path : String) : Prop :=
  ∃ stem ending, path = stem ++ ending ∧ (InAnyCase ".yaml" ending ∨ InAnyCase ".yml" ending)

/-- The end of a name tells the format: TOML, if it is not the end of a YAML file. -/
def TellsFormat (path : String) (f : Format) : Prop := f = .yaml ↔ EndsInYaml path

/-! ### Letter case -/

theorem toUpper_toLower {c : Char} (h : c.val ≥ 'A'.val ∧ c.val ≤ 'Z'.val) : c.toLower.toUpper = c := by
  have hlo : 65 ≤ c.toNat := UInt32.le_iff_toNat_le.mp h.1
  have hhi : c.toNat ≤ 90 := UInt32.le_iff_toNat_le.mp h.2
  rw [← Char.ofNat_toNat c]
  generalize c.toNat = n at hlo hhi
  interval_cases n <;> decide

/-- Whether a character is a small letter, or none at all. The two letters that have more than
one capital form are left out. -/
def isSmall (d : Char) : Bool := lowerChar d == d && lowerChar d.toUpper == d && d != 'i' && d != 'k'

/-- The forms of a small letter are itself and its capital letter. -/
theorem lowerChar_eq_iff {c d : Char} (h : isSmall d) : lowerChar c = d ↔ c = d ∨ c = d.toUpper := by
  simp only [isSmall, Bool.and_eq_true, beq_iff_eq, bne_iff_ne, ne_eq] at h
  obtain ⟨⟨⟨hd, hupper⟩, hi⟩, hk⟩ := h
  constructor
  · intro h
    unfold lowerChar at h
    split at h
    · exact absurd h.symm hi
    · exact absurd h.symm hk
    · by_cases hcapital : c.val ≥ 'A'.val ∧ c.val ≤ 'Z'.val
      · rw [← h, toUpper_toLower hcapital]
        exact .inr rfl
      · rw [Char.toLower, dif_neg hcapital] at h
        exact .inl h
  · rintro (rfl | rfl)
    · exact hd
    · exact hupper

/-- Texts that are a word in small letters are the word in any letter case. -/
theorem lowerCase_eq_iff {word s : String} (hword : word.toList.all isSmall) :
    lowerCase s = word ↔ InAnyCase word s := by
  have hlist : lowerCase s = word ↔ s.toList.map lowerChar = word.toList := by
    rw [← String.toList_inj, lowerCase, String.toList_map]
  rw [hlist, InAnyCase]
  generalize s.toList = cs
  generalize word.toList = ds at hword
  induction ds generalizing cs with
  | nil => simp
  | cons d ds ih =>
    rw [List.all_cons, Bool.and_eq_true] at hword
    cases cs with
    | nil => simp
    | cons c cs =>
      rw [List.map_cons, List.cons.injEq, List.forall₂_cons, lowerChar_eq_iff hword.1]
      exact and_congr_right' (ih cs hword.2)

/-! ### The last name of a path -/

namespace Path

theorem names_ne_nil (cs : List Char) : names cs ≠ [] := by
  fun_cases names cs <;> simp

theorem names_cons {c : Char} {cs name : List Char} {rest : List (List Char)} (hc : c ≠ '/')
    (h : names cs = name :: rest) : names (c :: cs) = (c :: name) :: rest := by
  rw [names, h]
  exact hc

theorem names_of_notMem : ∀ {cs : List Char}, '/' ∉ cs → names cs = [cs]
  | [], _ => rfl
  | c :: cs, h => by
    rw [List.mem_cons, not_or] at h
    exact names_cons (Ne.symm h.1) (names_of_notMem h.2)

theorem names_of_mem : ∀ {cs : List Char}, '/' ∈ cs → ∃ name next rest, names cs = name :: next :: rest
  | c :: cs, h => by
    by_cases hc : c = '/'
    · subst hc
      obtain ⟨next, rest, hnames⟩ := List.exists_cons_of_ne_nil (names_ne_nil cs)
      exact ⟨[], next, rest, by rw [names, hnames]⟩
    · obtain ⟨name, next, rest, hnames⟩ := names_of_mem ((List.mem_cons.mp h).resolve_left (Ne.symm hc))
      exact ⟨c :: name, next, rest, names_cons hc hnames⟩

/-- The ends of a path without a slash in them are those of its last name. -/
theorem suffix_lastName_iff {tail : List Char} (h : '/' ∉ tail) : ∀ cs : List Char,
    tail <:+ (names cs).getLastD [] ↔ tail <:+ cs
  | [] => Iff.rfl
  | c :: cs => by
    by_cases hmem : '/' ∈ c :: cs
    · have hlast : (names (c :: cs)).getLastD [] = (names cs).getLastD [] := by
        by_cases hc : c = '/'
        · subst hc
          obtain ⟨name, rest, hnames⟩ := List.exists_cons_of_ne_nil (names_ne_nil cs)
          simp [names, hnames]
        · obtain ⟨name, next, rest, hnames⟩ := names_of_mem ((List.mem_cons.mp hmem).resolve_left (Ne.symm hc))
          simp [names_cons hc hnames, hnames]
      have hwhole : tail ≠ c :: cs := by
        rintro rfl
        exact h hmem
      rw [hlast, suffix_lastName_iff h cs, List.suffix_cons_iff, or_iff_right hwhole]
    · rw [names_of_notMem hmem]
      rfl

/-- The extension of a path is what it ends in from a dot on, where no further dot or slash
comes. -/
theorem extension_eq_iff {path : String} {tail : List Char} (hdot : '.' ∉ tail) (hslash : '/' ∉ tail) :
    extension path = String.ofList ('.' :: tail) ↔ ('.' :: tail) <:+ path.toList := by
  rw [← suffix_lastName_iff (by simp [hslash]), extension]
  generalize (names path.toList).getLastD [] = name
  constructor
  · intro h
    split at h
    · next hlength =>
      have hending := List.takeWhile_append_dropWhile (p := (· ≠ '.')) (l := name.reverse)
      cases hrest : name.reverse.dropWhile (· ≠ '.') with
      | nil =>
        rw [hrest, List.append_nil] at hending
        rw [hending] at hlength
        exact absurd hlength (Nat.lt_irrefl _)
      | cons d rest =>
        have hhead := List.head?_dropWhile_not (· ≠ '.') name.reverse
        rw [hrest] at hhead
        obtain rfl : d = '.' := by simpa using hhead
        have htail : tail = (name.reverse.takeWhile (· ≠ '.')).reverse := by
          simpa using (String.ofList_injective h).symm
        refine ⟨rest.reverse, ?_⟩
        rw [← List.reverse_inj, ← hending, hrest, htail]
        simp
    · have hempty := congrArg String.toList h
      simp at hempty
  · rintro ⟨stem, rfl⟩
    have htail : ∀ c ∈ tail.reverse, decide (c ≠ '.') = true := by
      simp only [List.mem_reverse, decide_eq_true_eq]
      rintro c hc rfl
      exact hdot hc
    have hending : (stem ++ '.' :: tail).reverse.takeWhile (· ≠ '.') = tail.reverse := by
      rw [List.reverse_append, List.reverse_cons, List.append_assoc, List.takeWhile_append_of_pos htail]
      simp
    rw [hending]
    simp

end Path

/-! ### Formats -/

/-- A word that starts with a dot and has no other, nor a slash. It is all in small letters. -/
structure IsEnding (word : String) : Prop where
  small : word.toList.all isSmall
  head : word.toList.head? = some '.'
  tail : '.' ∉ word.toList.tail ∧ '/' ∉ word.toList.tail

/-- An ending in any letter case starts with the only dot in it, too. -/
theorem IsEnding.exists_tail {word s : String} (h : IsEnding word) (hs : InAnyCase word s) :
    ∃ tail, s = String.ofList ('.' :: tail) ∧ '.' ∉ tail ∧ '/' ∉ tail := by
  have hword : s.toList.map lowerChar = word.toList := by
    rw [← (lowerCase_eq_iff h.small).mpr hs, lowerCase, String.toList_map]
  obtain ⟨-, hhead, hdot, hslash⟩ := h
  rw [← hword] at hhead hdot hslash
  cases hs : s.toList with
  | nil => simp [hs] at hhead
  | cons c cs =>
    simp only [hs, List.map_cons, List.head?_cons, Option.some.injEq, List.tail_cons] at hhead hdot hslash
    obtain rfl : c = '.' := by
      obtain rfl | rfl := (lowerChar_eq_iff (by decide)).mp hhead <;> rfl
    refine ⟨cs, by rw [← hs, String.ofList_toList], fun hmem => hdot ?_, fun hmem => hslash ?_⟩
    · exact List.mem_map_of_mem hmem
    · exact List.mem_map_of_mem hmem

/-- A path has an ending in any letter case exactly if its extension is the ending in small
letters. -/
theorem IsEnding.lowerCase_extension_eq_iff {path word : String} (h : IsEnding word) :
    lowerCase (Path.extension path) = word ↔ ∃ stem ending, path = stem ++ ending ∧ InAnyCase word ending := by
  have hextension : ∀ ending, InAnyCase word ending →
      (Path.extension path = ending ↔ ∃ stem, path = stem ++ ending) := by
    intro ending hending
    obtain ⟨tail, rfl, hdot, hslash⟩ := h.exists_tail hending
    rw [Path.extension_eq_iff hdot hslash]
    constructor
    · rintro ⟨stem, hpath⟩
      exact ⟨String.ofList stem, by rw [← String.toList_inj, String.toList_append]; simp [← hpath]⟩
    · rintro ⟨stem, rfl⟩
      exact ⟨stem.toList, by simp⟩
  rw [lowerCase_eq_iff h.small]
  constructor
  · intro hending
    obtain ⟨stem, hpath⟩ := (hextension _ hending).mp rfl
    exact ⟨stem, _, hpath, hending⟩
  · rintro ⟨stem, ending, hpath, hending⟩
    rwa [(hextension ending hending).mpr ⟨stem, hpath⟩]

theorem isEnding_yaml : IsEnding ".yaml" := ⟨by decide, rfl, by decide⟩

theorem isEnding_yml : IsEnding ".yml" := ⟨by decide, rfl, by decide⟩

/-- **The format that the program takes a file for is the one that the end of its name tells.** -/
theorem tellsFormat_iff (path : String) (f : Format) : TellsFormat path f ↔ f = Format.ofPath path := by
  have hsmall : Format.ofPath path = .yaml ↔
      lowerCase (Path.extension path) = ".yaml" ∨ lowerCase (Path.extension path) = ".yml" := by
    unfold Format.ofPath
    split <;> simp_all
  have hyaml : Format.ofPath path = .yaml ↔ EndsInYaml path := by
    rw [hsmall, isEnding_yaml.lowerCase_extension_eq_iff, isEnding_yml.lowerCase_extension_eq_iff, EndsInYaml]
    simp only [← exists_or, ← and_or_left]
  rw [TellsFormat, ← hyaml]
  cases f <;> cases Format.ofPath path <;> simp

end Pseudocode
