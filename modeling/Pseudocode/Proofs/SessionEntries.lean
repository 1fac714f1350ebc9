/-
# The entries of a session

The answers of a session fall into entries. Each entry goes from a first answer to the one
that closes it (`IsEntry`): a command, a line that makes the text complete, a blank line or
the end of the input after an open text, an abort, or a failure. While an entry is open, its
lines make up a text that ends too early (`Growing`).

All that a session does meanwhile is to prompt and to hold that text (`Growing.after_eq`,
`Growing.turns_eq`). When the entry is closed, the session takes it as if it had come in one
piece (`Session.close`, `IsEntry.turns_eq`).

Key definitions: `Growing`, `Closing`, `IsEntry`, `commandOf`, `Session.after`,
`Session.close`.
Key theorems: `Growing.next`, `Growing.turns_eq`, `IsEntry.commandOf_eq`, `IsEntry.turns_eq`,
`IsEntry.after_eq`.
-/
import Pseudocode.Proofs.EntryContinuation

namespace Pseudocode

/-! ### Reading an entry -/

/-- The text of an entry with one more line. -/
def joined : Option String → String → String
  | none, text => text
  | some src, text => src ++ (probe src).separator ++ text

/-- A line goes into the text of an entry: a first line unless it is a command, a further
one unless it is blank. -/
def Joins : Option String → String → Prop
  | none, text => isCommand text = false
  | some _, text => isBlankText text = false

/-- A text that is not blank and ends too early. -/
def Unended (src : String) : Prop := isBlankText src = false ∧ (probe src).more = true

/-- The answers leave an entry open, and this is its text. -/
inductive Growing : List Answer → Option String → Prop where
  | nothing : Growing [] none
  | line {as : List Answer} {held? : Option String} {text : String} : Growing as held? →
      Joins held? text → Unended (joined held? text) →
        Growing (as ++ [.line text]) (some (joined held? text))

/-- How an entry is closed. -/
inductive Closing where
  | submitted (src : String)
  | dropped
  /-- The input ends where an entry would begin. -/
  | finished
  | failed (message : String)
deriving Repr, DecidableEq

/-- The answers are those of one entry. -/
inductive IsEntry : List Answer → Closing → Prop where
  | command {text : String} : isCommand text = true → IsEntry [.line text] (.submitted text)
  | complete {as : List Answer} {held? : Option String} {text : String} : Growing as held? →
      Joins held? text → ¬ Unended (joined held? text) →
        IsEntry (as ++ [.line text]) (.submitted (joined held? text))
  /-- A blank line submits the text as it is, -/
  | blank {as : List Answer} {src text : String} : Growing as (some src) → isBlankText text = true →
      IsEntry (as ++ [.line text]) (.submitted src)
  /-- and so does the end of the input. -/
  | cut {as : List Answer} {src : String} : Growing as (some src) →
      IsEntry (as ++ [.endOfInput]) (.submitted src)
  | dropped {as : List Answer} {held? : Option String} : Growing as held? →
      IsEntry (as ++ [.abort]) .dropped
  | finished : IsEntry [.endOfInput] .finished
  | failed {as : List Answer} {held? : Option String} {message : String} : Growing as held? →
      IsEntry (as ++ [.failure message]) (.failed message)

theorem Growing.eq_nil {as : List Answer} (h : Growing as none) : as = [] := by
  cases h
  rfl

/-- An answer keeps an entry open or closes it. -/
theorem Growing.next {as : List Answer} {held? : Option String} (h : Growing as held?) (a : Answer) :
    (∃ src, Growing (as ++ [a]) (some src)) ∨ ∃ r, IsEntry (as ++ [a]) r := by
  cases a with
  | line text =>
    by_cases hjoins : Joins held? text
    · by_cases hopen : Unended (joined held? text)
      · exact .inl ⟨_, h.line hjoins hopen⟩
      · exact .inr ⟨_, .complete h hjoins hopen⟩
    · cases held? with
      | none =>
        rw [h.eq_nil]
        exact .inr ⟨_, .command (by simpa [Joins] using hjoins)⟩
      | some src => exact .inr ⟨_, .blank h (by simpa [Joins] using hjoins)⟩
  | abort => exact .inr ⟨_, .dropped h⟩
  | endOfInput =>
    cases held? with
    | none =>
      rw [h.eq_nil]
      exact .inr ⟨_, .finished⟩
    | some src => exact .inr ⟨_, .cut h⟩
  | failure message => exact .inr ⟨_, .failed h⟩

theorem Joins.isCommand_joined {held? : Option String} {text : String} (h : Joins held? text)
    (hentry : ∀ src ∈ held?, isBlankText src = false ∧ isCommand src = false) :
    isCommand (joined held? text) = false := by
  cases held? with
  | none => exact h
  | some src =>
    obtain ⟨hblank, hcommand⟩ := hentry src rfl
    rw [joined, String.append_assoc, isCommand_append hblank, hcommand]

/-- The text of an open entry is neither blank nor a command. -/
theorem Growing.not_command {as : List Answer} {held? : Option String} (h : Growing as held?) :
    ∀ src ∈ held?, isBlankText src = false ∧ isCommand src = false := by
  induction h with
  | nothing => simp
  | line _ hjoins hopen ih =>
    rintro _ ⟨⟩
    exact ⟨hopen.1, hjoins.isCommand_joined ih⟩

/-! ### Commands -/

/-- The command that answers start with: the first one begins with a colon. -/
def commandOf : List Answer → Option String
  | .line text :: _ => if isCommand text then some (trimmed text) else none
  | _ => none

theorem Growing.commandOf_append {as : List Answer} {held? : Option String} (h : Growing as held?) :
    ∀ {tail : List Answer}, (held? = none → commandOf tail = none) → commandOf (as ++ tail) = none := by
  induction h with
  | nothing => exact fun htail => htail rfl
  | @line as held? text _ hjoins _ ih =>
    intro tail _
    rw [List.append_assoc]
    refine ih fun hnone => ?_
    subst hnone
    have hline : isCommand text = false := hjoins
    simp [commandOf, hline]

/-- The command that is closed, if it is one. -/
def Closing.command? : Closing → Option String
  | .submitted src => if isCommand src then some (trimmed src) else none
  | _ => none

/-- **An entry is a command exactly if its first answer is one.** -/
theorem IsEntry.commandOf_eq {as : List Answer} {r : Closing} (h : IsEntry as r) :
    commandOf as = r.command? := by
  cases h with
  | command hc => simp [commandOf, Closing.command?, hc]
  | complete h hjoins _ =>
    rw [h.commandOf_append fun hnone => ?_]
    · simp [Closing.command?, hjoins.isCommand_joined h.not_command]
    · subst hnone
      have hline : isCommand _ = false := hjoins
      simp [commandOf, hline]
  | blank h _ => simp [h.commandOf_append, Closing.command?, (h.not_command _ rfl).2]
  | cut h => simp [h.commandOf_append, Closing.command?, (h.not_command _ rfl).2]
  | dropped h => exact h.commandOf_append fun _ => rfl
  | finished => rfl
  | failed h => exact h.commandOf_append fun _ => rfl

/-! ### What the session does meanwhile -/

namespace Session

/-- The session that holds the lines of an entry. -/
def holding (s : Session) (held? : Option String) : Session := { s with entry? := held? }

/-- What a session holds does not matter to a text that is submitted, -/
theorem submit_holding (s : Session) (held? : Option String) (src : String) :
    (s.holding held?).submit src = s.submit src := by
  simp only [submit, holding]

/-- nor to a text that is all of the entry so far. -/
theorem extend_holding (s : Session) (held? : Option String) (src : String) :
    (s.holding held?).extend src = s.extend src := by
  simp only [extend, submit_holding]
  simp only [holding]

/-- The session after answers, unless it is over. -/
def after (s : Session) : List Answer → Option Session
  | [] => some s
  | a :: as =>
    match (s.answer a).2 with
    | .goesOn next => next.after as
    | .ends _ => none

/-- Takes an entry that is closed. -/
def close (s : Session) : Closing → Output × Progress
  | .submitted src => s.submit src
  | .dropped => ({}, .goesOn (s.holding none))
  | .finished => (.line "", .ends none)
  | .failed message => ({}, .ends (some message))

theorem extend_of_unended {s : Session} {src : String} (h : Unended src) (hc : isCommand src = false) :
    s.extend src = ({}, .goesOn (s.holding (some src))) := by
  simp [extend, h.1, hc, h.2, holding]

theorem extend_of_not_unended {s : Session} {src : String} (h : isCommand src = true ∨ ¬ Unended src) :
    s.extend src = s.submit src := by
  unfold extend
  split
  · next hopen =>
    simp only [Bool.and_eq_true, Bool.not_eq_true'] at hopen
    obtain ⟨⟨hblank, hcommand⟩, hmore⟩ := hopen
    rcases h with h | h
    · simp [hcommand] at h
    · exact absurd ⟨hblank, hmore⟩ h
  · rfl

theorem answer_joins {s : Session} {held? : Option String} {text : String} (h : Joins held? text) :
    (s.holding held?).answer (.line text) = s.extend (joined held? text) := by
  rw [← extend_holding s held?]
  cases held? with
  | none => simp only [answer, holding, joined]
  | some src =>
    have hblank : isBlankText text = false := h
    simp only [answer, holding, joined, hblank, Bool.false_eq_true, if_false]

theorem after_append (s : Session) (as bs : List Answer) :
    s.after (as ++ bs) = (s.after as).bind (·.after bs) := by
  induction as generalizing s with
  | nil => rfl
  | cons a as ih =>
    simp only [List.cons_append, after]
    cases (s.answer a).2 with
    | goesOn next => exact ih next
    | ends error? => rfl

/-- The turns after an answer was taken. -/
def proceed (rest : List Answer) : Output × Progress → List Turn × Option String
  | (o, .goesOn next) => next.turns o rest
  | (o, .ends error?) => ([⟨o, none⟩], error?)

theorem turns_cons (s : Session) (before : Output) (a : Answer) (rest : List Answer) :
    s.turns before (a :: rest) =
      (⟨before, some s.prompt⟩ :: (proceed rest (s.answer a)).1, (proceed rest (s.answer a)).2) := by
  rcases h : s.answer a with ⟨o, next | error?⟩ <;> simp [turns, h, proceed]

/-- The turn of an entry after so many answers of it. -/
def promptTurn (c : Console) (before : Output) : Nat → Turn
  | 0 => ⟨before, some c.settings.prompt⟩
  | _ + 1 => ⟨{}, some "... "⟩

/-- The turns of an entry with so many answers. -/
def promptTurns (c : Console) (before : Output) : Nat → List Turn
  | 0 => []
  | n + 1 => ⟨before, some c.settings.prompt⟩ :: List.replicate n ⟨{}, some "... "⟩

theorem promptTurns_succ (c : Console) (before : Output) (n : Nat) :
    promptTurns c before (n + 1) = promptTurns c before n ++ [promptTurn c before n] := by
  cases n with
  | zero => rfl
  | succ n => simp [promptTurns, promptTurn, List.replicate_succ']

theorem promptTurns_length {as : List Answer} (h : as ≠ []) (c : Console) (before : Output) :
    promptTurns c before as.length =
      ⟨before, some c.settings.prompt⟩ :: List.replicate (as.length - 1) ⟨{}, some "... "⟩ := by
  obtain ⟨a, as, rfl⟩ := List.exists_cons_of_ne_nil h
  rfl

end Session

open Session

theorem Growing.promptTurn_eq {as : List Answer} {held? : Option String} (h : Growing as held?)
    (s : Session) (before : Output) : promptTurn s.console before as.length =
      ⟨(promptTurn s.console before as.length).output, some (s.holding held?).prompt⟩ := by
  cases h with
  | nothing => rfl
  | line => rw [List.length_append]; rfl

/-- An open entry is all that the session holds. -/
theorem Growing.answer_line {as : List Answer} {held? : Option String} {text : String}
    (h : Growing as held?) (hjoins : Joins held? text) (hopen : Unended (joined held? text))
    (s : Session) : (s.holding held?).answer (.line text) =
      ({}, .goesOn (s.holding (some (joined held? text)))) := by
  rw [answer_joins hjoins, extend_of_unended hopen (hjoins.isCommand_joined h.not_command)]

theorem Growing.after_eq {as : List Answer} {held? : Option String} (h : Growing as held?) (s : Session) :
    (s.holding none).after as = some (s.holding held?) := by
  induction h with
  | nothing => rfl
  | line h hjoins hopen ih => simp [after_append, ih, after, h.answer_line hjoins hopen]

/-- **While an entry is open the session only prompts.** -/
theorem Growing.turns_eq {as : List Answer} {held? : Option String} (h : Growing as held?) (s : Session)
    (before : Output) : ∀ rest : List Answer, (s.holding none).turns before (as ++ rest) =
      (promptTurns s.console before as.length ++
          ((s.holding held?).turns (promptTurn s.console before as.length).output rest).1,
        ((s.holding held?).turns (promptTurn s.console before as.length).output rest).2) := by
  induction h with
  | nothing => exact fun _ => rfl
  | @line as held? text h hjoins hopen ih =>
    intro rest
    have hturn := h.promptTurn_eq s before
    rw [List.append_assoc, List.singleton_append, ih, turns_cons, h.answer_line hjoins hopen s, ← hturn,
      List.length_append, List.length_singleton, promptTurns_succ, List.append_assoc]
    rfl

/-- The last answer of an entry closes it. -/
theorem IsEntry.exists_last {as : List Answer} {r : Closing} (h : IsEntry as r) :
    ∃ part a held?, as = part ++ [a] ∧ Growing part held? ∧
      ∀ s : Session, (s.holding held?).answer a = s.close r := by
  cases h with
  | @command text hc =>
    refine ⟨[], _, none, rfl, .nothing, fun s => ?_⟩
    simp only [answer, holding, close]
    rw [extend_of_not_unended (.inl hc), ← submit_holding s none, holding]
  | @complete part held? text h hjoins hended =>
    refine ⟨part, _, held?, rfl, h, fun s => ?_⟩
    rw [answer_joins hjoins, extend_of_not_unended (.inr hended), close]
  | @blank part src text h hblank =>
    refine ⟨part, _, _, rfl, h, fun s => ?_⟩
    rw [close, ← submit_holding s (some src)]
    simp only [answer, holding, hblank, if_true]
  | @cut part src h =>
    refine ⟨part, _, _, rfl, h, fun s => ?_⟩
    rw [close, ← submit_holding s (some src)]
    simp only [answer, holding]
  | @dropped part held? h => exact ⟨part, _, _, rfl, h, fun s => by cases held? <;> rfl⟩
  | finished => exact ⟨[], _, none, rfl, .nothing, fun s => rfl⟩
  | @failed part held? message h => exact ⟨part, _, _, rfl, h, fun s => by cases held? <;> rfl⟩

/-- **An entry takes a prompt for each answer**, and then the session closes it. -/
theorem IsEntry.turns_eq {as : List Answer} {r : Closing} (h : IsEntry as r) (s : Session)
    (before : Output) (rest : List Answer) : (s.holding none).turns before (as ++ rest) =
      (promptTurns s.console before as.length ++ (proceed rest (s.close r)).1,
        (proceed rest (s.close r)).2) := by
  obtain ⟨part, a, held?, rfl, hpart, hanswer⟩ := h.exists_last
  rw [List.append_assoc, List.singleton_append, hpart.turns_eq, turns_cons, hanswer,
    ← hpart.promptTurn_eq s before, List.length_append, List.length_singleton, promptTurns_succ,
    List.append_assoc, List.singleton_append]

theorem IsEntry.after_eq {as : List Answer} {r : Closing} (h : IsEntry as r) {s next : Session}
    {o : Output} (hclose : s.close r = (o, .goesOn next)) : (s.holding none).after as = some next := by
  obtain ⟨part, a, held?, rfl, hpart, hanswer⟩ := h.exists_last
  simp [after_append, hpart.after_eq, after, (hanswer s).trans hclose]

theorem IsEntry.ne_nil {as : List Answer} {r : Closing} (h : IsEntry as r) : as ≠ [] := by
  obtain ⟨part, a, -, rfl, -⟩ := h.exists_last
  simp

theorem IsEntry.closing_eq_failed_iff {as : List Answer} {r : Closing} (h : IsEntry as r) (message : String) :
    r = .failed message ↔ as.getLast? = some (.failure message) := by
  cases h <;> simp

theorem Growing.of_isPrefix {as part : List Answer} {held? : Option String} (h : Growing as held?) :
    part <+: as → ∃ held?, Growing part held? := by
  induction h with
  | nothing =>
    intro hpart
    rw [List.prefix_nil.mp hpart]
    exact ⟨none, .nothing⟩
  | line h hjoins hopen ih =>
    intro hpart
    rcases List.prefix_concat_iff.mp hpart with rfl | hpart
    · exact ⟨_, h.line hjoins hopen⟩
    · exact ih hpart

theorem IsEntry.growing_of_isPrefix {as part : List Answer} {r : Closing} (h : IsEntry as r)
    (hpart : part <+: as) (hne : part ≠ as) : ∃ held?, Growing part held? := by
  obtain ⟨front, a, held?, rfl, hfront, -⟩ := h.exists_last
  rcases List.prefix_concat_iff.mp hpart with rfl | hpart
  · exact absurd rfl hne
  · exact hfront.of_isPrefix hpart

end Pseudocode
