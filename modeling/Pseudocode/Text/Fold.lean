/-
# Letter case

Texts are compared with words of small ASCII letters. A character is brought to
the small ASCII letter that it is a form of, and is left alone if it is none.
Besides the capital letters two characters have an ASCII letter as their small
form, the dotted capital I and the Kelvin sign. Without regard to case, the
Kelvin sign is a form of k and the long s one of s.

Key definitions: `lowerCase`, `sameLetters`.
-/

namespace Pseudocode

/-- The small form of a character, as far as it is an ASCII letter. -/
def lowerChar (c : Char) : Char :=
  match c with
  | '\u0130' => 'i'
  | '\u212a' => 'k'
  | c => c.toLower

/-- A text in small letters, as far as they are ASCII letters. -/
def lowerCase (s : String) : String := s.map lowerChar

/-- One character for all forms of an ASCII letter. -/
def foldChar (c : Char) : Char :=
  match c with
  | '\u212a' => 'k'
  | '\u017f' => 's'
  | c => c.toLower

/-- Whether a text and a word of ASCII letters are the same up to letter case. -/
def sameLetters (s word : String) : Bool :=
  s.toList.map foldChar == word.toList.map foldChar

end Pseudocode
