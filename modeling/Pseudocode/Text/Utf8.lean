/-
# Bytes read as text

Source files are bytes. They are read as UTF-8, and a byte that does not
belong to a well-formed sequence is read as one U+FFFD character, so every
byte string has exactly one reading.

Key definitions: `utf8Sequence?`, `textOfBytes`.
-/

namespace Pseudocode

/-- The character that stands for a byte that is no UTF-8. -/
def replacementChar : Char := Char.ofNat 0xFFFD

/-- The payload of a continuation byte. -/
def continuation? (b : UInt8) : Option Nat :=
  if 0x80 ≤ b && b ≤ 0xBF then some (b.toNat - 0x80) else none

/-- The character of a well-formed sequence at the front of the bytes, with the
number of its continuation bytes. Overlong forms, surrogates and code points
above U+10FFFF are not well formed. -/
def utf8Sequence? : UInt8 → List UInt8 → Option (Char × Nat)
  | b, rest =>
    if b < 0x80 then some (Char.ofNat b.toNat, 0)
    else if 0xC2 ≤ b && b ≤ 0xDF then
      match rest.take 1 |>.map continuation? with
      | [some x] => some (Char.ofNat ((b.toNat - 0xC0) * 64 + x), 1)
      | _ => none
    else if 0xE0 ≤ b && b ≤ 0xEF then
      match rest.take 2 |>.map continuation? with
      | [some x, some y] =>
        let code := ((b.toNat - 0xE0) * 64 + x) * 64 + y
        if code < 0x800 || (0xD800 ≤ code && code < 0xE000) then none
        else some (Char.ofNat code, 2)
      | _ => none
    else if 0xF0 ≤ b && b ≤ 0xF4 then
      match rest.take 3 |>.map continuation? with
      | [some x, some y, some z] =>
        let code := (((b.toNat - 0xF0) * 64 + x) * 64 + y) * 64 + z
        if code < 0x10000 || 0x110000 ≤ code then none else some (Char.ofNat code, 3)
      | _ => none
    else none

/-- The characters of a byte string; `skip` bytes at its front belong to the
character before them. -/
def charsOfBytes : Nat → List UInt8 → List Char
  | _, [] => []
  | skip + 1, _ :: rest => charsOfBytes skip rest
  | 0, b :: rest =>
    match utf8Sequence? b rest with
    | some (c, n) => c :: charsOfBytes n rest
    | none => replacementChar :: charsOfBytes 0 rest

/-- The text that bytes spell, one U+FFFD for each byte that is no UTF-8. -/
def textOfBytes (bytes : List UInt8) : String :=
  String.ofList (charsOfBytes 0 bytes)

end Pseudocode
