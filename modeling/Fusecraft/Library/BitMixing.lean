import Mathlib.Algebra.Group.Nat.Defs
import Mathlib.Data.Nat.Basic

/-!
# Mixing of machine words

The building blocks of multiply-xorshift hash functions on words of any
width.  Exclusive or with a shifted copy and multiplication by a unit lose no
information, so a finalizer made of them is injective.  Rotations permute the
bits and distribute over exclusive or, so whether two rotated fields can
cancel is a question about their distance only.
-/

namespace BitMixing

variable {width : Nat}

/-- An equation between two sums of words may be solved for other pairs. -/
theorem xor_exchange (first second third fourth : BitVec width) :
    first ^^^ second = third ^^^ fourth ↔ first ^^^ third = second ^^^ fourth := by
  have regrouped : (first ^^^ second) ^^^ (third ^^^ fourth) =
      (first ^^^ third) ^^^ (second ^^^ fourth) := by
    ac_rfl
  rw [← BitVec.xor_eq_zero_iff, regrouped, BitVec.xor_eq_zero_iff]

/-! ## Steps that lose no information -/

/-- Only zero is its own proper right shift. -/
theorem eq_zero_of_eq_shiftRight {shift : Nat} (positive : 0 < shift) {word : BitVec width}
    (same : word = word >>> shift) : word = BitVec.ofNat width 0 := by
  have value : word.toNat = word.toNat / 2 ^ shift := by
    calc
      word.toNat = (word >>> shift).toNat := congrArg BitVec.toNat same
      _ = word.toNat / 2 ^ shift := by rw [BitVec.toNat_ushiftRight, Nat.shiftRight_eq_div_pow]
  apply BitVec.eq_of_toNat_eq
  rw [BitVec.toNat_zero]
  by_contra nonzero
  have shrinks : word.toNat / 2 ^ shift < word.toNat :=
    Nat.div_lt_self (Nat.pos_of_ne_zero nonzero) (Nat.one_lt_two_pow (Nat.ne_of_gt positive))
  omega

/-- Folding the high bits into the low ones is injective. -/
theorem xor_shiftRight_injective {shift : Nat} (positive : 0 < shift)
    (first second : BitVec width)
    (same : first ^^^ (first >>> shift) = second ^^^ (second >>> shift)) : first = second := by
  have difference : first ^^^ second = (first ^^^ second) >>> shift := by
    rw [BitVec.ushiftRight_xor_distrib]
    exact (xor_exchange _ _ _ _).mp same
  exact BitVec.xor_eq_zero_iff.mp (eq_zero_of_eq_shiftRight positive difference)

/-- Multiplication by a factor with an inverse is injective. -/
theorem mul_injective {factor inverse : BitVec width}
    (unit : factor * inverse = BitVec.ofNat width 1)
    (first second : BitVec width) (same : first * factor = second * factor) :
    first = second := by
  calc
    first = first * (factor * inverse) := by rw [unit, BitVec.mul_one]
    _ = second * (factor * inverse) := by rw [← BitVec.mul_assoc, same, BitVec.mul_assoc]
    _ = second := by rw [unit, BitVec.mul_one]

/-! ## Rotations -/

/-- Where a rotated word takes its bits from. -/
theorem getLsbD_rotateLeft {distance index : Nat} (short : distance < width)
    (inside : index < width) (word : BitVec width) :
    (word.rotateLeft distance).getLsbD index =
      word.getLsbD (if index < distance then width - distance + index else index - distance) := by
  rw [BitVec.getLsbD_rotateLeft, Nat.mod_eq_of_lt short]
  by_cases wrapped : index < distance
  · simp [wrapped]
  · simp [wrapped, inside]

theorem rotateLeft_xor {distance : Nat} (short : distance < width) (first second : BitVec width) :
    (first ^^^ second).rotateLeft distance =
      first.rotateLeft distance ^^^ second.rotateLeft distance := by
  apply BitVec.eq_of_getLsbD_eq
  intro index inside
  rw [BitVec.getLsbD_xor, getLsbD_rotateLeft short inside, getLsbD_rotateLeft short inside,
    getLsbD_rotateLeft short inside, BitVec.getLsbD_xor]

theorem rotateLeft_add {first second : Nat} (short : first + second < width)
    (word : BitVec width) :
    (word.rotateLeft second).rotateLeft first = word.rotateLeft (first + second) := by
  apply BitVec.eq_of_getLsbD_eq
  intro index inside
  have source : (if index < first then width - first + index else index - first) < width := by
    split <;> omega
  rw [getLsbD_rotateLeft (by omega) inside, getLsbD_rotateLeft (by omega) source,
    getLsbD_rotateLeft short inside]
  congr 1
  split <;> split <;> split <;> omega

theorem rotateLeft_injective {distance : Nat} (short : distance < width)
    (first second : BitVec width)
    (same : first.rotateLeft distance = second.rotateLeft distance) : first = second := by
  apply BitVec.eq_of_getLsbD_eq
  intro index inside
  -- Bit `index` is found again `distance` places up, around the end.
  have moved : exists target, target < width ∧
      (if target < distance then width - distance + target else target - distance) = index := by
    by_cases wraps : index + distance < width
    · refine ⟨index + distance, wraps, ?_⟩
      rw [if_neg (by omega), Nat.add_sub_cancel]
    · refine ⟨index + distance - width, by omega, ?_⟩
      rw [if_pos (by omega)]
      omega
  rcases moved with ⟨target, valid, source⟩
  have bits := congrArg (BitVec.getLsbD . target) same
  simp only [getLsbD_rotateLeft short valid, source] at bits
  exact bits

/-- Two rotated words agree just if one is the other, turned by the
difference of the distances. -/
theorem rotateLeft_eq_rotateLeft_iff {near gap : Nat} (short : near + gap < width)
    (first second : BitVec width) :
    first.rotateLeft near = second.rotateLeft (near + gap) ↔ first = second.rotateLeft gap := by
  rw [← rotateLeft_add short]
  constructor
  · exact rotateLeft_injective (by omega) _ _
  · exact fun same => congrArg (BitVec.rotateLeft . near) same

/-- A rotation that pushes no set bit over the end is a shift. -/
theorem rotateLeft_eq_shiftLeft {distance room : Nat} (fits : room + distance ≤ width)
    (proper : distance < width) {word : BitVec width} (small : word.toNat < 2 ^ room) :
    word.rotateLeft distance = word <<< distance := by
  have clear : forall index, room ≤ index -> word.getLsbD index = false := by
    intro index beyond
    rw [← BitVec.testBit_toNat]
    apply Nat.testBit_lt_two_pow
    exact Nat.lt_of_lt_of_le small (Nat.pow_le_pow_right (by decide) beyond)
  apply BitVec.eq_of_getLsbD_eq
  intro index inside
  rw [getLsbD_rotateLeft proper inside, BitVec.getLsbD_shiftLeft]
  by_cases wrapped : index < distance
  · rw [if_pos wrapped, clear _ (by omega)]
    simp [wrapped]
  · simp [wrapped, inside]

end BitMixing
