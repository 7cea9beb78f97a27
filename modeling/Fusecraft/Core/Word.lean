import Fusecraft.Library.BitMixing
import Mathlib.Data.UInt

namespace Fusecraft

open BitMixing

/-!
# 64-bit words

The word operations that the sampling keys and the synthetic content share,
with what makes them lossless, and when two words that are turned by different
distances cancel each other.
-/

/-- `u64::rotate_left`. -/
def rotateLeft (word : UInt64) (distance : Nat) : UInt64 :=
  ⟨word.toBitVec.rotateLeft distance⟩

/-! ## Steps of a finalizer -/

theorem xorShift_injective {shift : UInt64} (positive : 0 < shift.toNat % 64)
    (first second : UInt64)
    (same : first ^^^ (first >>> shift) = second ^^^ (second >>> shift)) : first = second := by
  apply UInt64.toBitVec_inj.mp
  apply xor_shiftRight_injective positive
  have words := congrArg UInt64.toBitVec same
  simpa using words

theorem wrappingMul_injective {factor : UInt64} (inverse : UInt64) (unit : factor * inverse = 1)
    (first second : UInt64) (same : first * factor = second * factor) : first = second := by
  apply UInt64.toBitVec_inj.mp
  apply mul_injective (congrArg UInt64.toBitVec unit)
  exact congrArg UInt64.toBitVec same

/-! ## Rotations -/

theorem rotateLeft_injective_word {distance : Nat} (short : distance < 64)
    {first second : UInt64} (same : rotateLeft first distance = rotateLeft second distance) :
    first = second := by
  apply UInt64.toBitVec_inj.mp
  exact rotateLeft_injective short _ _ (congrArg UInt64.toBitVec same)

theorem rotateLeft_xor_word {distance : Nat} (short : distance < 64) (first second : UInt64) :
    rotateLeft (first ^^^ second) distance =
      rotateLeft first distance ^^^ rotateLeft second distance := by
  apply UInt64.toBitVec_inj.mp
  exact rotateLeft_xor short first.toBitVec second.toBitVec

theorem xor_lt {room : Nat} {first second : UInt64} (left : first.toNat < 2 ^ room)
    (right : second.toNat < 2 ^ room) : (first ^^^ second).toNat < 2 ^ room := by
  rw [UInt64.toNat_xor]
  exact Nat.xor_lt_two_pow left right

section Pairs

variable {near gap room : Nat}

/-- A word is cancelled by a short word that is turned further just if it is
the short word shifted by the places between them. -/
theorem rotated_eq_iff (fits : room + gap ≤ 64) (short : near + gap < 64)
    {first second : UInt64} (small : second.toNat < 2 ^ room) :
    rotateLeft first near = rotateLeft second (near + gap) ↔
      first = second <<< UInt64.ofNat gap := by
  have proper : gap < 64 := by omega
  have shifted : second.toBitVec.rotateLeft gap = (second <<< UInt64.ofNat gap).toBitVec := by
    rw [rotateLeft_eq_shiftLeft fits proper small]
    apply BitVec.eq_of_toNat_eq
    simp [Nat.mod_eq_of_lt proper]
  calc
    rotateLeft first near = rotateLeft second (near + gap)
        ↔ first.toBitVec.rotateLeft near = second.toBitVec.rotateLeft (near + gap) :=
      UInt64.toBitVec_inj.symm
    _ ↔ first.toBitVec = second.toBitVec.rotateLeft gap :=
      rotateLeft_eq_rotateLeft_iff short _ _
    _ ↔ first = second <<< UInt64.ofNat gap := by rw [shifted, UInt64.toBitVec_inj]

/-- Two pairs of words, the second ones short and turned further, have the
same exclusive or just if the first words differ in the bits in which the
second ones do, moved up by the places between them. -/
theorem rotated_pair_eq_iff (fits : room + gap ≤ 64) (short : near + gap < 64)
    (first first' : UInt64) {second second' : UInt64} (small : second.toNat < 2 ^ room)
    (small' : second'.toNat < 2 ^ room) :
    rotateLeft first near ^^^ rotateLeft second (near + gap) =
        rotateLeft first' near ^^^ rotateLeft second' (near + gap) ↔
      first ^^^ first' = (second ^^^ second') <<< UInt64.ofNat gap := by
  calc
    rotateLeft first near ^^^ rotateLeft second (near + gap) =
          rotateLeft first' near ^^^ rotateLeft second' (near + gap)
        ↔ rotateLeft (first ^^^ first') near = rotateLeft (second ^^^ second') (near + gap) := by
      rw [rotateLeft_xor_word (by omega), rotateLeft_xor_word (by omega),
        ← UInt64.toBitVec_inj, ← UInt64.toBitVec_inj]
      exact xor_exchange _ _ _ _
    _ ↔ first ^^^ first' = (second ^^^ second') <<< UInt64.ofNat gap :=
      rotated_eq_iff fits short (xor_lt small small')

end Pairs

end Fusecraft
