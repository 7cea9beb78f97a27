import Mathlib.Algebra.BigOperators.Group.Finset.Basic
import Mathlib.Algebra.Order.BigOperators.Group.Finset

/-!
# Draining a total that is seen through a modulus

A reader takes a total away piece by piece.  It asks for a size each time, and
gets that much of what is left, but what is left is only seen modulo a fixed
number.  The multiple of the modulus is never touched: the reader gets on as if
the total were its residue, and stops there.
-/

namespace Draining

open Finset

variable {total modulus position size : Nat}

/-- What a request gets at a position. -/
def gets (total modulus position size : Nat) : Nat :=
  min ((total - position) % modulus) size

/-- Within the residue, taking away commutes with taking the residue. -/
theorem sub_mod_of_le (inside : position ≤ total % modulus) :
    (total - position) % modulus = total % modulus - position := by
  have split := Nat.div_add_mod total modulus
  rcases Nat.eq_zero_or_pos modulus with rfl | positive
  · simp only [Nat.mod_zero]
  · have small := Nat.mod_lt total positive
    calc
      (total - position) % modulus
          = (modulus * (total / modulus) + (total % modulus - position)) % modulus := by
        congr 1
        omega
      _ = total % modulus - position := by
        rw [Nat.mul_add_mod, Nat.mod_eq_of_lt (by omega)]

theorem gets_eq (inside : position ≤ total % modulus) :
    gets total modulus position size = min (total % modulus - position) size := by
  rw [gets, sub_mod_of_le inside]

/-- Past the total there is nothing to get. -/
theorem gets_of_le (past : total ≤ position) : gets total modulus position size = 0 := by
  rw [gets, Nat.sub_eq_zero_of_le past, Nat.zero_mod, Nat.zero_min]

section Requests

variable {sizes : Nat -> Nat}

/-- The position after a number of requests. -/
def reached (total modulus : Nat) (sizes : Nat -> Nat) : Nat -> Nat
  | 0 => 0
  | count + 1 =>
      let position := reached total modulus sizes count
      position + gets total modulus position (sizes count)

/-- The reader has all it asked for, up to the residue. -/
theorem reached_eq (total modulus : Nat) (sizes : Nat -> Nat) (count : Nat) :
    reached total modulus sizes count =
      min (total % modulus) (∑ index ∈ range count, sizes index) := by
  induction count with
  | zero => simp [reached]
  | succ count ih =>
      have inside : reached total modulus sizes count ≤ total % modulus := by
        rw [ih]
        exact Nat.min_le_left _ _
      rw [reached, gets_eq inside, ih, sum_range_succ]
      omega

theorem reached_le (total modulus : Nat) (sizes : Nat -> Nat) (count : Nat) :
    reached total modulus sizes count ≤ total % modulus := by
  rw [reached_eq]
  exact Nat.min_le_left _ _

/-- Requests for something reach the residue. -/
theorem reached_residue (positive : forall index, 0 < sizes index) {count : Nat}
    (enough : total % modulus ≤ count) : reached total modulus sizes count = total % modulus := by
  have asked : count ≤ ∑ index ∈ range count, sizes index := by
    have ones := card_nsmul_le_sum (range count) sizes 1 (fun index _ => positive index)
    simpa using ones
  rw [reached_eq]
  omega

end Requests

end Draining
