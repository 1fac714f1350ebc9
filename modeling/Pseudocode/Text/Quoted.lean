/-
# Quoted text

The quoted form of a text is its characters between quotes, where a character
that is not printable, the quote itself and the backslash are written as
escapes: a short one for the common control characters, `\x` with two digits
inside ASCII, `\u` with four and `\U` with eight beyond.

Key definitions: `escaped`, `quoteText`, `quoteCodePoint`.
-/
import Pseudocode.Text.Printable
import Pseudocode.Text.Utf8

namespace Pseudocode

/-- The lower-case hexadecimal digits of `n`, with zeros in front up to `width`. -/
def hexDigits (width n : Nat) : List Char :=
  let digits := Nat.toDigits 16 n
  List.replicate (width - digits.length) '0' ++ digits

/-- The letter of the short escape of a control character. -/
def shortEscape? : Char → Option Char
  | '\x07' => some 'a'
  | '\x08' => some 'b'
  | '\x0c' => some 'f'
  | '\n' => some 'n'
  | '\r' => some 'r'
  | '\t' => some 't'
  | '\x0b' => some 'v'
  | _ => none

/-- A character inside quotes of the kind `quote`. -/
def escaped (quote c : Char) : List Char :=
  if c = quote || c = '\\' then ['\\', c]
  else if isPrintable c then [c]
  else match shortEscape? c with
    | some e => ['\\', e]
    | none =>
      if c.toNat < 128 then '\\' :: 'x' :: hexDigits 2 c.toNat
      else if c.toNat < 0x10000 then '\\' :: 'u' :: hexDigits 4 c.toNat
      else '\\' :: 'U' :: hexDigits 8 c.toNat

/-- A text between double quotes. -/
def quoteText (s : String) : String :=
  String.ofList ('"' :: s.toList.flatMap (escaped '"') ++ ['"'])

/-- The character with the given code point, or U+FFFD where there is none. -/
def charOfCodePoint (code : Int) : Char :=
  if 0 ≤ code && code.toNat.isValidChar then Char.ofNat code.toNat else replacementChar

/-- A code point between single quotes. -/
def quoteCodePoint (code : Int) : String :=
  String.ofList ('\'' :: escaped '\'' (charOfCodePoint code) ++ ['\''])

end Pseudocode
