/-
# Scanning

A scanner is a place in a source text and the characters from there on. Each
step skips the blanks and takes one lexeme, or gives the end token once nothing
is left, and it can be stepped on after an error and after the end. Scanning a
whole text takes the tokens up to the end, or stops at the first error.

Key definitions: `Scanner`, `Scanner.next`, `Scanner.tokens`, `scan`.
Key theorem: `Scanner.length_next_lt`.
-/
import Pseudocode.Token.Lexeme

namespace Pseudocode

/-- A place in a source and the text from there on. -/
structure Scanner where
  pos : Pos
  rest : List Char
deriving Repr, Inhabited

namespace Scanner

/-- A scanner at the start of a source. -/
def ofSource (file src : String) : Scanner := ⟨Pos.start file, src.toList⟩

/-- The scanner after the blanks in front of it. -/
def skipSpacing (s : Scanner) : Scanner :=
  ⟨s.pos.advanceBy (s.rest.takeWhile isSpacing), s.rest.dropWhile isSpacing⟩

/-- Whether only blanks are left. -/
def atEnd (s : Scanner) : Bool := s.skipSpacing.rest.isEmpty

/-- The scanner after a lexeme. -/
def past (s : Scanner) (l : Lexeme) : Scanner := ⟨s.pos.advanceBy l.taken, l.rest⟩

/-- What a lexeme that starts at `start` and ends before `stop` gives. -/
def report (start stop : Pos) : Meaning → Except ScanError Token
  | .token kind value name => .ok ⟨kind, start, value, name⟩
  | .faultAtStart fault codePoint => .error ⟨fault, start, codePoint⟩
  | .faultAfter fault codePoint => .error ⟨fault, stop, codePoint⟩

/-- One step: a token or an error, and the scanner after it. -/
def next (s : Scanner) : Except ScanError Token × Scanner :=
  let start := s.skipSpacing
  match start.rest with
  | [] => (.ok { kind := .eof, pos := start.pos }, start)
  | c :: cs =>
    let lexeme := lexemeAt c cs
    let after := start.past lexeme
    (report start.pos after.pos lexeme.meaning, after)

/-- The results of `n` steps, whatever they are. -/
def steps : Nat → Scanner → List (Except ScanError Token)
  | 0, _ => []
  | n + 1, s => s.next.1 :: steps n s.next.2

theorem length_skipSpacing_le (s : Scanner) : s.skipSpacing.rest.length ≤ s.rest.length := by
  have h := congrArg List.length (List.takeWhile_append_dropWhile (p := isSpacing) (l := s.rest))
  simp only [List.length_append] at h
  simp only [skipSpacing]
  omega

/-- A step that is not at the end takes at least one character, also when it
gives an error. -/
theorem length_next_lt {s : Scanner} (h : s.atEnd = false) :
    s.next.2.rest.length < s.rest.length := by
  have hle := s.length_skipSpacing_le
  unfold next
  cases hr : s.skipSpacing.rest with
  | nil => simp [atEnd, hr] at h
  | cons c cs =>
    have hlt := length_rest_lt c cs
    simp only [hr, past] at hle ⊢
    omega

/-- All tokens up to the end, or the first error. -/
def tokens (s : Scanner) : Except ScanError (List Token) :=
  match _h : s.next with
  | (.error e, _) => .error e
  | (.ok t, after) =>
    if _hs : s.atEnd then .ok [t] else after.tokens.map (t :: ·)
termination_by s.rest.length
decreasing_by
  have h' := length_next_lt (Bool.eq_false_iff.mpr _hs)
  rw [_h] at h'
  exact h'

end Scanner

/-- The tokens of a source, or its first lexical error. -/
def scan (file src : String) : Except ScanError (List Token) :=
  (Scanner.ofSource file src).tokens

end Pseudocode
