import Mathlib.Algebra.Order.Floor.Ring
import Mathlib.Tactic.Linarith

/-!
# Rounding to the nearest integer

The two rules for ties that programs use: away from zero, and to the even
neighbour.  For the second rule, being rounded to at most an odd bound is a
strict comparison: the tie above an odd integer goes up.
-/

namespace Rounding

variable {K : Type*} [Field K] [LinearOrder K] [FloorRing K]

/-- To the nearest integer, ties away from zero. -/
def halfAway (value : K) : Int :=
  if 0 ≤ value then ⌊value + 1 / 2⌋ else ⌈value - 1 / 2⌉

/-- To the nearest integer, ties to the even neighbour. -/
def halfEven (value : K) : Int :=
  if value - ⌊value⌋ < 1 / 2 then ⌊value⌋
  else if 1 / 2 < value - ⌊value⌋ then ⌊value⌋ + 1
  else if ⌊value⌋ % 2 = 0 then ⌊value⌋
  else ⌊value⌋ + 1

theorem floor_le_halfEven (value : K) : ⌊value⌋ ≤ halfEven value := by
  unfold halfEven
  split
  · exact le_refl _
  · split
    · omega
    · split <;> omega

/-- What is not negative is not rounded below zero. -/
theorem halfEven_nonneg {value : K} (nonneg : 0 ≤ value) : 0 ≤ halfEven value :=
  le_trans (Int.floor_nonneg.mpr nonneg) (floor_le_halfEven value)

variable [IsStrictOrderedRing K]

/-- Rounding to the nearest loses half a unit at most. -/
theorem le_halfEven_add (value : K) : value ≤ halfEven value + 1 / 2 := by
  have upper := Int.lt_floor_add_one value
  unfold halfEven
  by_cases below : value - ⌊value⌋ < 1 / 2
  · rw [if_pos below]
    linarith
  · rw [if_neg below]
    by_cases above : 1 / 2 < value - ⌊value⌋
    · rw [if_pos above]
      push_cast
      linarith
    · rw [if_neg above]
      split
      · linarith
      · push_cast
        linarith

/-- A value is rounded to at most an odd bound exactly if it is below the tie
that follows the bound. -/
theorem halfEven_le_iff_of_odd (value : K) {bound : Int} (odd : bound % 2 = 1) :
    halfEven value ≤ bound ↔ value < bound + 1 / 2 := by
  have lower := Int.floor_le value
  have upper := Int.lt_floor_add_one value
  have cast : forall {first second : Int}, first ≤ second -> (first : K) ≤ second :=
    fun ordered => Int.cast_le.mpr ordered
  unfold halfEven
  by_cases below : value - ⌊value⌋ < 1 / 2
  · rw [if_pos below]
    constructor
    · intro bounded
      have := cast bounded
      linarith
    · intro small
      by_contra above
      have := cast (Int.add_one_le_of_lt (lt_of_not_ge above))
      push_cast at this
      linarith
  · rw [if_neg below]
    have half := le_of_not_gt below
    by_cases above : 1 / 2 < value - ⌊value⌋
    · rw [if_pos above]
      constructor
      · intro bounded
        have := cast bounded
        push_cast at this
        linarith
      · intro small
        by_contra larger
        have := cast (Int.lt_add_one_iff.mp (lt_of_not_ge larger))
        linarith
    · rw [if_neg above]
      have tie : value = ⌊value⌋ + 1 / 2 := by
        have := le_of_not_gt above
        linarith
      have strict : value < bound + 1 / 2 ↔ ⌊value⌋ < bound := by
        constructor
        · intro small
          have : (⌊value⌋ : K) < bound := by linarith
          exact Int.cast_lt.mp this
        · intro small
          have : (⌊value⌋ : K) < bound := Int.cast_lt.mpr small
          linarith
      rw [strict]
      split <;> omega

end Rounding
