/-
# The bits of a double

A pattern of 64 bits whose exponent is not the greatest is that of a finite double, and
the double read from it has that pattern (`toBits_ofBits`). So the finite doubles without
a sign are the numbers below `infinityPattern` (`lt_infinityPattern_iff`). The sign is the
first bit, and negation changes that bit and no other (`toNat_toBits_neg`).

Key definition: `flipSign`.
Key theorems: `isFinite_iff`, `toBits_ofBits`, `lt_infinityPattern_iff`,
`toNat_toBits_ofBits`, `unpack_flipSign`, `toNat_toBits_neg`.
-/
import Mathlib
import Pseudocode.Decimal.Binary64

namespace Pseudocode

open Float.Model
open Float.Model.UnpackedFloat (unpackExponent unpackMantissa unpackSign Sign)

theorem toNat_unpackExponent (b : BitVec 64) :
    (@unpackExponent .binary64 b).toNat = b.toNat / 2 ^ 52 % 2 ^ 11 := by
  simp [unpackExponent, Nat.shiftRight_eq_div_pow]

theorem unpackExponent_eq_top_iff (b : BitVec 64) :
    @unpackExponent .binary64 b = -1#11 ↔ ¬ b.toNat / 2 ^ 52 % 2 ^ 11 < 2047 := by
  have htop : (-1#11).toNat = 2047 := rfl
  rw [← BitVec.toNat_inj, toNat_unpackExponent, htop]
  omega

theorem isFinite_iff (x : Float) : x.isFinite ↔ x.toBits.toNat / 2 ^ 52 % 2 ^ 11 < 2047 := by
  have htop := unpackExponent_eq_top_iff x.toBits.toBitVec
  change (UnpackedFloat.unpack .binary64 x.toBits.toBitVec).isFinite ↔ _
  rw [UnpackedFloat.unpack]
  by_cases he : @unpackExponent .binary64 x.toBits.toBitVec = -1#11
  · rw [if_pos he]
    split <;> simpa [UnpackedFloat.isFinite] using htop.mp he
  · have hfin := not_not.mp (mt htop.mpr he)
    rw [if_neg he]
    split
    · split <;> simpa [UnpackedFloat.isFinite] using hfin
    · simpa [UnpackedFloat.isFinite] using hfin

theorem toBits_ofBits {a : UInt64} (h : a.toNat / 2 ^ 52 % 2 ^ 11 < 2047) : (Float.ofBits a).toBits = a := by
  have hvalid : Format.binary64.Valid a.toBitVec :=
    ⟨fun htop => absurd h ((unpackExponent_eq_top_iff a.toBitVec).mp htop)⟩
  exact UInt64.toBitVec_inj.mp (UnpackedFloat.pack_unpack_of_valid hvalid)

theorem infinityPattern_eq : infinityPattern = 2047 * 2 ^ 52 := rfl

/-- The finite doubles without a sign. -/
theorem lt_infinityPattern_iff (x : Float) :
    x.toBits.toNat < infinityPattern ↔ x.isFinite ∧ x.toBits.toNat < twoTo 63 := by
  have hlt := x.toBits.toNat_lt
  have hsign : twoTo 63 = 2 ^ 63 := rfl
  rw [isFinite_iff, infinityPattern_eq, hsign]
  omega

/-- The double of a number below `infinityPattern` has that number as its bits. -/
theorem toNat_toBits_ofBits {p : Nat} (hp : p < infinityPattern) :
    (Float.ofBits p.toUInt64).toBits.toNat = p := by
  rw [infinityPattern_eq] at hp
  have hbits : p.toUInt64.toNat = p := by
    rw [Nat.toUInt64, UInt64.toNat_ofNat']
    omega
  rw [toBits_ofBits (by omega), hbits]

/-! ### The sign -/

/-- The bits of a double with the other sign. -/
def flipSign (b : BitVec 64) : BitVec 64 := b + BitVec.ofNat 64 (2 ^ 63)

theorem toNat_flipSign (b : BitVec 64) : (flipSign b).toNat = (b.toNat + 2 ^ 63) % 2 ^ 64 := by
  rw [flipSign, BitVec.toNat_add, BitVec.toNat_ofNat, Nat.mod_eq_of_lt (by decide : 2 ^ 63 < 2 ^ 64)]

theorem toNat_unpackMantissa (b : BitVec 64) : (@unpackMantissa .binary64 b).toNat = b.toNat % 2 ^ 52 := by
  simp [unpackMantissa]

theorem toNat_unpackSign (b : BitVec 64) : (@unpackSign .binary64 b).toNat = b.toNat / 2 ^ 63 := by
  have hlt := b.isLt
  simp [unpackSign, Nat.shiftRight_eq_div_pow]
  omega

theorem unpackExponent_flipSign (b : BitVec 64) :
    @unpackExponent .binary64 (flipSign b) = @unpackExponent .binary64 b := by
  rw [← BitVec.toNat_inj, toNat_unpackExponent, toNat_unpackExponent, toNat_flipSign]
  omega

theorem unpackMantissa_flipSign (b : BitVec 64) :
    @unpackMantissa .binary64 (flipSign b) = @unpackMantissa .binary64 b := by
  rw [← BitVec.toNat_inj, toNat_unpackMantissa, toNat_unpackMantissa, toNat_flipSign]
  omega

theorem sign_flipSign (b : BitVec 64) :
    Sign.ofBitVec (@unpackSign .binary64 (flipSign b)) = -Sign.ofBitVec (@unpackSign .binary64 b) := by
  have hlt := b.isLt
  have hzero : (0#1).toNat = 0 := rfl
  have hflip : (@unpackSign .binary64 (flipSign b)).toNat = 1 - b.toNat / 2 ^ 63 := by
    rw [toNat_unpackSign, toNat_flipSign]
    omega
  simp only [Sign.ofBitVec, ← BitVec.toNat_inj, hflip, toNat_unpackSign, hzero]
  by_cases hpos : b.toNat / 2 ^ 63 = 0
  · rw [if_pos hpos, if_neg (by omega)]
    rfl
  · rw [if_neg hpos, if_pos (by omega)]
    rfl

theorem unpack_flipSign (b : BitVec 64) :
    UnpackedFloat.unpack .binary64 (flipSign b) = (UnpackedFloat.unpack .binary64 b).neg := by
  unfold UnpackedFloat.unpack
  simp only [unpackExponent_flipSign, unpackMantissa_flipSign, sign_flipSign]
  split
  · split <;> rfl
  · split
    · split <;> rfl
    · rfl

/-- **Negation changes the sign bit and no other.** -/
theorem toNat_toBits_neg {x : Float} (h : x.isFinite) :
    (-x).toBits.toNat = (x.toBits.toNat + 2 ^ 63) % 2 ^ 64 := by
  have hvalid : Format.binary64.Valid (flipSign x.toBits.toBitVec) := by
    refine ⟨fun htop => absurd ((isFinite_iff x).mp h) ?_⟩
    rw [unpackExponent_flipSign] at htop
    exact (unpackExponent_eq_top_iff _).mp htop
  have hbits : (-x).toBits.toBitVec = flipSign x.toBits.toBitVec := by
    change UnpackedFloat.pack .binary64 (UnpackedFloat.unpack .binary64 x.toBits.toBitVec).neg = _
    rw [← unpack_flipSign, UnpackedFloat.pack_unpack_of_valid hvalid]
  rw [← UInt64.toNat_toBitVec, hbits, toNat_flipSign, UInt64.toNat_toBitVec]

theorem isFinite_neg {x : Float} (h : x.isFinite) : (-x).isFinite := by
  have hfin := (isFinite_iff x).mp h
  rw [isFinite_iff, toNat_toBits_neg h]
  omega

theorem neg_neg_of_isFinite {x : Float} (h : x.isFinite) : - -x = x := by
  have hlt := x.toBits.toNat_lt
  rw [← Float.toBits_inj, ← UInt64.toNat_inj, toNat_toBits_neg (isFinite_neg h), toNat_toBits_neg h]
  omega

end Pseudocode
