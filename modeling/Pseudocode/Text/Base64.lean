/-
# Base64

Bytes written with 64 characters, four for each three bytes. The last group is
filled up with equals signs. Line ends between the characters do not count, and
bits that no byte needs may have any value.

Key definitions: `base64Digit?`, `base64Bytes?`.
-/

namespace Pseudocode

/-- The six bits that a character stands for. -/
def base64Digit? (c : Char) : Option Nat :=
  if 'A' ≤ c && c ≤ 'Z' then some (c.toNat - 'A'.toNat)
  else if 'a' ≤ c && c ≤ 'z' then some (c.toNat - 'a'.toNat + 26)
  else if '0' ≤ c && c ≤ '9' then some (c.toNat - '0'.toNat + 52)
  else if c = '+' then some 62
  else if c = '/' then some 63
  else none

/-- The bytes that groups of four characters stand for. -/
def base64Groups? : List Char → Option (List UInt8)
  | [] => some []
  | [a, b, '=', '='] => do
    let n := (← base64Digit? a) * 64 + (← base64Digit? b)
    pure [UInt8.ofNat (n / 16)]
  | [a, b, c, '='] => do
    let n := ((← base64Digit? a) * 64 + (← base64Digit? b)) * 64 + (← base64Digit? c)
    pure [UInt8.ofNat (n / 1024), UInt8.ofNat (n / 4 % 256)]
  | a :: b :: c :: d :: cs => do
    let n := ((← base64Digit? a) * 64 + (← base64Digit? b)) * 64 + (← base64Digit? c)
    let n := n * 64 + (← base64Digit? d)
    let rest ← base64Groups? cs
    pure (UInt8.ofNat (n / 65536) :: UInt8.ofNat (n / 256 % 256) :: UInt8.ofNat (n % 256) :: rest)
  | _ => none

/-- The bytes that a text stands for. -/
def base64Bytes? (s : String) : Option (List UInt8) :=
  base64Groups? (s.toList.filter fun c => c ≠ '\n' && c ≠ '\r')

end Pseudocode
