import Mathlib.Algebra.BigOperators.Intervals
import Mathlib.Algebra.Order.Field.Basic
import Mathlib.Algebra.Order.Group.Finset
import Mathlib.Algebra.Order.Group.MinMax
import Mathlib.Tactic.Linarith
import Mathlib.Tactic.Ring

/-!
# The ideal token bucket

A bucket of a given burst size starts full and is refilled continuously at a
constant rate, never above the burst.  Requests take their amount out of it at
once, so the balance may become negative, and a request waits until the
refill has brought the balance back to zero.

The requests are numbered; `amount` and `time` say how much each one takes and
when.  The level of the bucket obeys a recursion over the requests, and the
wait it implies has a closed form: the largest backlog over all windows that
end with the request.  Everything holds over any ordered field.
-/

namespace TokenBucket

variable {K : Type*} [Field K] [LinearOrder K] [IsStrictOrderedRing K]

/-- Refilling in two steps is refilling once: the cap commutes with the split. -/
theorem refill_split {rate burst : K} (rate_nonneg : 0 ≤ rate) (tokens : K) {first second : K}
    (second_nonneg : 0 ≤ second) :
    min burst (min burst (tokens + rate * first) + rate * second) =
      min burst (tokens + rate * (first + second)) := by
  have gain : 0 ≤ rate * second := mul_nonneg rate_nonneg second_nonneg
  rcases le_total burst (tokens + rate * first) with full | room
  · rw [min_eq_left full, min_eq_left (by linarith), min_eq_left (by linarith)]
  · rw [min_eq_right room]
    congr 1
    ring

section Requests

variable (rate burst : K) (amount time : Nat -> K)

/-- The tokens in the bucket at a moment after the first `count` requests. -/
def level : Nat -> K -> K
  | 0, _ => burst
  | count + 1, now =>
      min burst (level count (time count) - amount count + rate * (now - time count))

/-- The tokens right after request number `index`, negative when in debt. -/
def balance (index : Nat) : K := level rate burst amount time index (time index) - amount index

/-- How long request number `index` waits. -/
def wait (index : Nat) : K := max 0 (-balance rate burst amount time index / rate)

/-- The moment at which request number `index` is released. -/
def release (index : Nat) : K := time index + wait rate burst amount time index

/-- What the requests from `first` to `last` exceed the burst by, in time,
less the time that has gone by since the first of them. -/
def backlog (last first : Nat) : K :=
  ((∑ index ∈ Finset.Icc first last, amount index) - burst) / rate - (time last - time first)

variable {rate burst amount time}

omit [IsStrictOrderedRing K] in
theorem level_le (rate burst : K) (amount time : Nat -> K) (count : Nat) (now : K) :
    level rate burst amount time count now ≤ burst := by
  cases count with
  | zero => exact le_refl burst
  | succ count => exact min_le_left _ _

omit [IsStrictOrderedRing K] in
theorem balance_succ (index : Nat) :
    balance rate burst amount time (index + 1) =
      min burst (balance rate burst amount time index +
        rate * (time (index + 1) - time index)) - amount (index + 1) := rfl

/-! ## The closed form -/

omit [LinearOrder K] [IsStrictOrderedRing K] in
/-- A further request adds the same amount to every window that it ends. -/
theorem backlog_succ {first last : Nat} (ordered : first ≤ last + 1) :
    backlog rate burst amount time (last + 1) first =
      ((∑ index ∈ Finset.Icc first last, amount index) - burst) / rate -
        (time last - time first) +
        (amount (last + 1) / rate - (time (last + 1) - time last)) := by
  rw [backlog, Finset.sum_Icc_succ_top ordered]
  ring

/-- The debt after a request, in time, is the largest backlog that it ends. -/
theorem neg_balance_div (positive : 0 < rate) (index : Nat) :
    -balance rate burst amount time index / rate =
      (Finset.range (index + 1)).sup' Finset.nonempty_range_add_one
        (backlog rate burst amount time index) := by
  induction index with
  | zero =>
      change -(burst - amount 0) / rate = backlog rate burst amount time 0 0
      rw [backlog, Finset.Icc_self, Finset.sum_singleton]
      ring
  | succ index ih =>
      have grown : forall first, first ∈ Finset.range (index + 1) ->
          backlog rate burst amount time (index + 1) first =
            backlog rate burst amount time index first +
              (amount (index + 1) / rate - (time (index + 1) - time index)) := by
        intro first member
        exact backlog_succ (Nat.le_of_lt (Finset.mem_range.mp member))
      have alone : backlog rate burst amount time (index + 1) (index + 1) =
          (amount (index + 1) - burst) / rate := by
        rw [backlog, Finset.Icc_self, Finset.sum_singleton]
        ring
      calc
        -balance rate burst amount time (index + 1) / rate =
            max ((amount (index + 1) - burst) / rate)
              (-balance rate burst amount time index / rate +
                (amount (index + 1) / rate - (time (index + 1) - time index))) := by
          have debt : -balance rate burst amount time index / rate +
              (amount (index + 1) / rate - (time (index + 1) - time index)) =
              (amount (index + 1) - (balance rate burst amount time index +
                rate * (time (index + 1) - time index))) / rate := by
            rw [sub_add_eq_sub_sub, sub_div, mul_div_cancel_left₀ _ positive.ne', sub_div, neg_div]
            ring
          rw [debt, balance_succ, neg_sub, max_div_div_right positive.le, max_sub_sub_left]
        _ = max (backlog rate burst amount time (index + 1) (index + 1))
              ((Finset.range (index + 1)).sup' Finset.nonempty_range_add_one
                (backlog rate burst amount time (index + 1))) := by
          rw [ih, Finset.sup'_add, alone]
          congr 1
          exact Finset.sup'_congr _ rfl (fun first member => (grown first member).symm)
        _ = (insert (index + 1) (Finset.range (index + 1))).sup' (Finset.insert_nonempty _ _)
              (backlog rate burst amount time (index + 1)) :=
          (Finset.sup'_insert Finset.nonempty_range_add_one _).symm
        _ = _ := Finset.sup'_congr _ Finset.range_add_one.symm (fun _ _ => rfl)

theorem wait_eq (positive : 0 < rate) (index : Nat) :
    wait rate burst amount time index =
      max 0 ((Finset.range (index + 1)).sup' Finset.nonempty_range_add_one
        (backlog rate burst amount time index)) := by
  rw [wait, neg_balance_div positive]

/-- A request larger than the burst always waits. -/
theorem wait_pos (positive : 0 < rate) {index : Nat} (larger : burst < amount index) :
    0 < wait rate burst amount time index := by
  have full := level_le rate burst amount time index (time index)
  have debt : 0 < -balance rate burst amount time index := by
    rw [balance]
    linarith
  exact lt_of_lt_of_le (div_pos debt positive) (le_max_right _ _)

/-! ## Consequences for the released traffic -/

omit [IsStrictOrderedRing K] in
theorem wait_nonneg (rate burst : K) (amount time : Nat -> K) (index : Nat) :
    0 ≤ wait rate burst amount time index :=
  le_max_left _ _

/-- A wait is just long enough to refill a debt. -/
theorem rate_mul_wait (positive : 0 < rate) (index : Nat) :
    rate * wait rate burst amount time index =
      max 0 (-balance rate burst amount time index) := by
  rw [wait, mul_max_of_nonneg _ _ positive.le, mul_zero, mul_div_cancel₀ _ positive.ne']

theorem balance_add_nonneg (positive : 0 < rate) (burst : K) (amount time : Nat -> K)
    (index : Nat) :
    0 ≤ balance rate burst amount time index + rate * wait rate burst amount time index := by
  have debt := le_max_right 0 (-balance rate burst amount time index)
  rw [rate_mul_wait positive]
  linarith

/-- What a request leaves in the bucket, less its debt, is within the burst. -/
theorem balance_add_le (positive : 0 < rate) (burst_nonneg : 0 ≤ burst)
    (amount_nonneg : forall index, 0 ≤ amount index) (time : Nat -> K) (index : Nat) :
    balance rate burst amount time index + rate * wait rate burst amount time index ≤ burst := by
  have full : balance rate burst amount time index ≤ burst := by
    have below := level_le rate burst amount time index (time index)
    have taken := amount_nonneg index
    rw [balance]
    linarith
  rw [rate_mul_wait positive]
  rcases le_total 0 (balance rate burst amount time index) with credit | debt
  · rw [max_eq_left (by linarith)]
    linarith
  · rw [max_eq_right (by linarith)]
    linarith

/-- Releases keep the order of the requests. -/
theorem release_succ_le (positive : 0 < rate) (amount_nonneg : forall index, 0 ≤ amount index)
    {index : Nat} (ordered : time index ≤ time (index + 1)) :
    release rate burst amount time index ≤ release rate burst amount time (index + 1) := by
  have shrinks : balance rate burst amount time (index + 1) ≤
      balance rate burst amount time index + rate * (time (index + 1) - time index) := by
    have taken := amount_nonneg (index + 1)
    rw [balance_succ]
    have refilled := min_le_right burst
      (balance rate burst amount time index + rate * (time (index + 1) - time index))
    linarith
  have repaid := balance_add_nonneg positive burst amount time (index + 1)
  have scaled : rate * wait rate burst amount time index ≤
      rate * (time (index + 1) - time index + wait rate burst amount time (index + 1)) := by
    rw [rate_mul_wait positive, mul_add]
    apply max_le
    · have later := wait_nonneg rate burst amount time (index + 1)
      exact add_nonneg (mul_nonneg positive.le (sub_nonneg.mpr ordered))
        (mul_nonneg positive.le later)
    · linarith
  have shorter := le_of_mul_le_mul_left scaled positive
  rw [release, release]
  linarith

theorem release_le (positive : 0 < rate) (amount_nonneg : forall index, 0 ≤ amount index)
    {first last : Nat} (before : first ≤ last)
    (ordered : forall index, index < last -> time index ≤ time (index + 1)) :
    release rate burst amount time first ≤ release rate burst amount time last := by
  induction last, before using Nat.le_induction with
  | base => exact le_refl _
  | succ last before ih =>
      exact le_trans (ih (fun index inside => ordered index (Nat.lt_succ_of_lt inside)))
        (release_succ_le positive amount_nonneg (ordered last (Nat.lt_succ_self last)))

/-- Over any stretch of requests the balance gains at most the refill. -/
theorem balance_le (rate burst : K) (amount time : Nat -> K) {first last : Nat}
    (before : first ≤ last) :
    balance rate burst amount time last ≤
      balance rate burst amount time first + rate * (time last - time first) -
        ∑ index ∈ Finset.Ioc first last, amount index := by
  induction last, before using Nat.le_induction with
  | base => simp
  | succ last before ih =>
      have refilled := min_le_right burst
        (balance rate burst amount time last + rate * (time (last + 1) - time last))
      rw [balance_succ, Finset.sum_Ioc_succ_top before]
      linarith

/-- Between two releases no more than the burst and the refill goes through. -/
theorem window_le (positive : 0 < rate) (burst_nonneg : 0 ≤ burst)
    (amount_nonneg : forall index, 0 ≤ amount index) {first last : Nat} (before : first ≤ last) :
    ∑ index ∈ Finset.Ioc first last, amount index ≤
      burst + rate * (release rate burst amount time last -
        release rate burst amount time first) := by
  have stretch := balance_le rate burst amount time before
  have start := balance_add_le positive burst_nonneg amount_nonneg time first
  have finish := balance_add_nonneg positive burst amount time last
  rw [release, release]
  linarith

end Requests

end TokenBucket
