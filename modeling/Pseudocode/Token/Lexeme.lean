/-
# One lexeme

What stands at the front of source text that does not start with a blank. A
lexeme is found without regard to places: the characters it takes, the
characters it leaves, and what they mean. Every lexeme takes at least one
character, also one that is no token.

* A word is a letter and the letters and digits after it.
* A number is a digit and the digits and points after it; a letter glued to
  it is an error, whatever the number is.
* A text stands between single quotes; a backslash before `n` is a newline,
  and before any other character that character itself.
* All else is an operator, a parenthesis or a newline, of one character or two.

Key definitions: `Meaning`, `Lexeme`, `lexemeAt`.
Key theorems: `taken_append_rest`, `taken_ne_nil`.
-/
import Pseudocode.Decimal.Power
import Pseudocode.Text.Letter
import Pseudocode.Token
import Pseudocode.Token.ScanError

namespace Pseudocode

/-- What a lexeme means: a token, or a fault that is reported where the lexeme
starts or at the character after it. -/
inductive Meaning where
  | token (kind : TokenKind) (value : Value) (name : String)
  | faultAtStart (fault : ScanFault) (codePoint : Int)
  | faultAfter (fault : ScanFault) (codePoint : Int)
deriving Repr, Inhabited

/-- A lexeme at the front of some text. -/
structure Lexeme where
  /-- What the characters taken mean. -/
  meaning : Meaning
  /-- The characters of the lexeme. -/
  taken : List Char
  /-- The characters after it. -/
  rest : List Char
deriving Repr, Inhabited

/-- A token that carries nothing. -/
def Meaning.plain (kind : TokenKind) : Meaning := .token kind .invalid ""

/-- A literal token. -/
def Meaning.literal (v : Value) : Meaning := .token .literal v ""

/-- A blank between lexemes. A newline is none: it is a lexeme of its own. -/
def isSpacing (c : Char) : Bool :=
  c == ' ' || c == '\t' || c == '\r' || c == '\x0b' || c == '\x0c'

/-! ### Words -/

/-- What a word means. -/
def wordMeaning (word : String) : Meaning :=
  match wordKind word with
  | .literal => .literal (.bool (word = "True"))
  | .identifier => .token .identifier .invalid word
  | k => .plain k

/-- The word at the front of `cs`. -/
def wordAt (cs : List Char) : Lexeme :=
  let word := cs.takeWhile isWordChar
  ⟨wordMeaning (String.ofList word), word, cs.dropWhile isWordChar⟩

/-! ### Numbers -/

/-- A character of a number after its first digit. -/
def isNumberChar (c : Char) : Bool := isAsciiDigit c || c == '.'

/-- The value of digits and points: a double if there is a point, else an
integer of at most 63 bits. -/
def numberValue (run : List Char) : Except ScanFault Value :=
  if run.contains '.' then
    match (Decimal.read? run).bind Decimal.nearest? with
    | some x => .ok (.float x)
    | none => .error .badFloat
  else
    let n := Nat.ofDigitChars 10 run 0
    if n < twoTo 63 then .ok (.int (Int64.ofNat n)) else .error .badInt

/-- What the digits and points `run` mean when `next` follows them. -/
def numberMeaning (run : List Char) (next : Option Char) : Meaning :=
  match next.filter isLetter with
  | some c => .faultAfter .unexpectedChar c.toNat
  | none =>
    match numberValue run with
    | .ok v => .literal v
    | .error fault => .faultAtStart fault 0

/-- The number at the front of `cs`. -/
def numberAt (cs : List Char) : Lexeme :=
  let run := cs.takeWhile isNumberChar
  let rest := cs.dropWhile isNumberChar
  ⟨numberMeaning run rest.head?, run, rest⟩

/-! ### Texts -/

/-- The character that a backslash and `c` stand for. -/
def unescaped (c : Char) : Char := if c = 'n' then '\n' else c

/-- What follows an opening quote: the characters up to and with the closing
one, the text they spell if there is a closing one, and the rest. -/
def quotedRun : List Char → List Char × Option (List Char) × List Char
  | [] => ([], none, [])
  | c :: cs =>
    if c = '\'' then (['\''], some [], cs)
    else if c = '\\' then
      match cs with
      | [] => (['\\'], none, [])
      | d :: ds =>
        let (run, text, rest) := quotedRun ds
        ('\\' :: d :: run, text.map (unescaped d :: ·), rest)
    else
      let (run, text, rest) := quotedRun cs
      (c :: run, text.map (c :: ·), rest)

/-- The text whose opening quote stands before `cs`. -/
def textAt (cs : List Char) : Lexeme :=
  let (run, text, rest) := quotedRun cs
  let meaning := match text with
    | some text => .literal (.text (String.ofList text))
    | none => .faultAtStart .unexpectedEnd '\''.toNat
  ⟨meaning, '\'' :: run, rest⟩

/-! ### Operators -/

/-- The kind of an operator of two characters. -/
def doubleSymbol? : Char → Char → Option TokenKind
  | '<', '-' => some .assign
  | '<', '=' => some .lessEqual
  | '>', '=' => some .greaterEqual
  | '!', '=' => some .notEqual
  | _, _ => none

/-- The kind of an operator of one character. -/
def singleSymbol? : Char → Option TokenKind
  | '\n' => some .newline
  | '(' => some .leftParen
  | ')' => some .rightParen
  | '+' => some .plus
  | '-' => some .minus
  | '*' => some .times
  | '/' => some .divide
  | '=' => some .equal
  | '<' => some .less
  | '>' => some .greater
  | _ => none

/-- What a character that starts no longer operator means before `cs`. An
exclamation mark needs the equals sign after it, so there it is the next
character that is wrong, or the end. -/
def singleMeaning (c : Char) (cs : List Char) : Meaning :=
  match singleSymbol? c with
  | some k => .plain k
  | none =>
    if c = '!' then
      match cs with
      | [] => .faultAtStart .unexpectedEnd '!'.toNat
      | d :: _ => .faultAfter .unexpectedChar d.toNat
    else .faultAtStart .unexpectedChar c.toNat

/-- The operator at the front of `c :: cs`. -/
def symbolAt (c : Char) (cs : List Char) : Lexeme :=
  match cs with
  | [] => ⟨singleMeaning c [], [c], []⟩
  | d :: ds =>
    match doubleSymbol? c d with
    | some k => ⟨.plain k, [c, d], ds⟩
    | none => ⟨singleMeaning c (d :: ds), [c], d :: ds⟩

/-- The lexeme at the front of `c :: cs`. -/
def lexemeAt (c : Char) (cs : List Char) : Lexeme :=
  if isLetter c then wordAt (c :: cs)
  else if isAsciiDigit c then numberAt (c :: cs)
  else if c = '\'' then textAt cs
  else symbolAt c cs

/-! ### A lexeme is a nonempty piece of its text -/

theorem quotedRun_append (cs : List Char) : (quotedRun cs).1 ++ (quotedRun cs).2.2 = cs := by
  fun_induction quotedRun cs <;> simp_all

theorem isWordChar_of_isLetter {c : Char} (h : isLetter c) : isWordChar c := by
  simp [isWordChar, h]

theorem isNumberChar_of_isAsciiDigit {c : Char} (h : isAsciiDigit c) : isNumberChar c := by
  simp [isNumberChar, h]

/-- Nothing is lost: the characters taken and those left are the text. -/
theorem taken_append_rest (c : Char) (cs : List Char) :
    (lexemeAt c cs).taken ++ (lexemeAt c cs).rest = c :: cs := by
  unfold lexemeAt
  split
  · simp [wordAt, List.takeWhile_append_dropWhile]
  split
  · simp [numberAt, List.takeWhile_append_dropWhile]
  split
  · next h => simp [textAt, quotedRun_append, h]
  · unfold symbolAt
    split
    · rfl
    · split <;> rfl

/-- Every lexeme takes a character. -/
theorem taken_ne_nil (c : Char) (cs : List Char) : (lexemeAt c cs).taken ≠ [] := by
  unfold lexemeAt
  split
  · next h => simp [wordAt, isWordChar_of_isLetter h]
  split
  · next h => simp [numberAt, isNumberChar_of_isAsciiDigit h]
  split
  · simp [textAt]
  · unfold symbolAt
    split
    · simp
    · split <;> simp

theorem length_rest_lt (c : Char) (cs : List Char) :
    (lexemeAt c cs).rest.length < (c :: cs).length := by
  have h := congrArg List.length (taken_append_rest c cs)
  have h' := List.length_pos_iff.mpr (taken_ne_nil c cs)
  simp only [List.length_append] at h
  omega

end Pseudocode
