import Fusecraft.Library.Rounding
import Mathlib.Data.Rat.Cast.Order
import Mathlib.Data.Rat.Floor

namespace Fusecraft

/-!
# Durations and the floating-point interface

A `Duration` counts nanoseconds and carries the bound that makes it
representable: at most `2^64 - 1` seconds and 999999999 nanoseconds.  Adding
two of them may overflow, which is a panic in the program and the absence of a
result here.

The program computes with `f64`.  Nothing in the development needs the bits of
that format, so the operations in use are collected in a class without laws.
What is proved over the class holds for the machine's floats; where a
statement reads floats as exact numbers, it is stated at the rationals.  The
few facts about comparisons and literals that are true of every float format,
its NaNs included, are a second class.
-/

/-- A span of time that `std::time::Duration` can represent. -/
structure Duration where
  nanos : Nat
  le_max : nanos ≤ (2 ^ 64 - 1) * 10 ^ 9 + 999999999
  deriving DecidableEq, Repr

namespace Duration

/-- The largest number of nanoseconds in a duration. -/
def maxNanos : Nat := (2 ^ 64 - 1) * 10 ^ 9 + 999999999

def zero : Duration := ⟨0, Nat.zero_le _⟩

def max : Duration := ⟨maxNanos, Nat.le_refl _⟩

/-- A count of nanoseconds as a duration, if it is in range. -/
def ofNanos? (nanos : Nat) : Option Duration :=
  if fits : nanos ≤ maxNanos then some ⟨nanos, fits⟩ else none

/-- `Duration::from_micros`: every 64-bit count of microseconds fits. -/
def fromMicros (micros : UInt64) : Duration where
  nanos := micros.toNat * 1000
  le_max := by
    have bound := micros.toNat_lt
    omega

/-- `self + other`, absent where the sum overflows and std panics. -/
def add (first second : Duration) : Option Duration :=
  ofNanos? (first.nanos + second.nanos)

/-- `as_micros() as u64`: whole microseconds, truncated to 64 bits. -/
def asMicrosU64 (duration : Duration) : UInt64 :=
  UInt64.ofNat (duration.nanos / 1000)

theorem ofNanos?_isSome (nanos : Nat) :
    (ofNanos? nanos).isSome = true ↔ nanos ≤ maxNanos := by
  unfold ofNanos?
  by_cases fits : nanos ≤ maxNanos
  · simp [fits]
  · simp [fits]

/-- A duration is not changed by adding none. -/
theorem add_zero (duration : Duration) : duration.add zero = some duration := by
  change ofNanos? (duration.nanos + 0) = some duration
  rw [Nat.add_zero]
  exact dif_pos duration.le_max

theorem add_isSome (first second : Duration) :
    (first.add second).isSome = true ↔ first.nanos + second.nanos ≤ maxNanos :=
  ofNanos?_isSome _

theorem nanos_add {first second sum : Duration} (adds : first.add second = some sum) :
    sum.nanos = first.nanos + second.nanos := by
  unfold add ofNanos? at adds
  split at adds
  · cases adds
    rfl
  · cases adds

end Duration

/-- The `f64` operations that the program uses. -/
class F64 (F : Type) where
  literal : Rat -> F
  ofU64 : UInt64 -> F
  toU64 : F -> UInt64
  neg : F -> F
  add : F -> F -> F
  sub : F -> F -> F
  mul : F -> F -> F
  div : F -> F -> F
  lt : F -> F -> Bool
  le : F -> F -> Bool
  min : F -> F -> F
  max : F -> F -> F
  round : F -> F
  isFinite : F -> Bool
  display : F -> String
  asSecs : Nat -> F
  tryFromSecs : F -> Option Duration

/-- What the comparisons of `f64` satisfy on all values: a comparison with a
NaN fails, rounding a literal is monotone, and literals far inside the range
of the format are finite. -/
class LawfulF64 (F : Type) [F64 F] : Prop where
  lt_of_lt_of_le {first second third : F} : F64.lt first second = true ->
    F64.le second third = true -> F64.lt first third = true
  not_le_of_lt {first second : F} : F64.lt first second = true -> F64.le second first = false
  lt_of_literal_lt {first second : Rat} :
    F64.lt (F64.literal first : F) (F64.literal second) = true -> first < second
  isFinite_literal {value : Rat} : |value| ≤ 2 ^ 1000 -> F64.isFinite (F64.literal value : F) = true

/-- A literal is not below a smaller one. -/
theorem F64.literal_not_lt {F : Type} [F64 F] [LawfulF64 F] {first second : Rat}
    (ordered : second ≤ first) : F64.lt (F64.literal first : F) (F64.literal second) = false := by
  cases below : F64.lt (F64.literal first : F) (F64.literal second) with
  | false => rfl
  | true => exact absurd (LawfulF64.lt_of_literal_lt below) (not_lt_of_ge ordered)

/-! ## The exact reading

Every number is finite.  Rounding to an integer goes away from zero on ties,
the cast to `u64` saturates, and a number of seconds becomes a duration by
rounding to the nearest nanosecond with ties to even.  The reading is the same
over every ordered field with a floor; what differs is how a number is shown. -/

/-- Exact numbers in the place of floats. -/
class ExactF64 (K : Type) where
  display : K -> String

section Exact

variable {K : Type} [Field K] [LinearOrder K] [FloorRing K]

/-- `Duration::try_from_secs_f64` on an exact number of seconds. -/
def tryFromSecsExact (secs : K) : Option Duration :=
  if secs < 0 then none else Duration.ofNanos? (Rounding.halfEven (secs * 10 ^ 9)).toNat

variable [ExactF64 K]

instance exactF64 : F64 K where
  literal := fun value => (value : K)
  ofU64 := fun word => word.toNat
  toU64 := fun value => UInt64.ofNat (min ⌊value⌋.toNat (2 ^ 64 - 1))
  neg := fun value => -value
  add := fun first second => first + second
  sub := fun first second => first - second
  mul := fun first second => first * second
  div := fun first second => first / second
  lt := fun first second => decide (first < second)
  le := fun first second => decide (first ≤ second)
  min := min
  max := max
  round := fun value => Rounding.halfAway value
  isFinite := fun _ => true
  display := ExactF64.display
  asSecs := fun nanos => nanos / 10 ^ 9
  tryFromSecs := tryFromSecsExact

namespace F64

variable (first second : K)

@[simp] theorem exact_literal (value : Rat) : (literal value : K) = value := rfl

@[simp] theorem exact_ofU64 (word : UInt64) : (ofU64 word : K) = word.toNat := rfl

@[simp] theorem exact_neg : neg first = -first := rfl

@[simp] theorem exact_add : add first second = first + second := rfl

@[simp] theorem exact_sub : sub first second = first - second := rfl

@[simp] theorem exact_mul : mul first second = first * second := rfl

@[simp] theorem exact_div : div first second = first / second := rfl

@[simp] theorem exact_lt : lt first second = decide (first < second) := rfl

@[simp] theorem exact_le : le first second = decide (first ≤ second) := rfl

@[simp] theorem exact_min : min first second = Min.min first second := rfl

@[simp] theorem exact_max : max first second = Max.max first second := rfl

@[simp] theorem exact_asSecs (nanos : Nat) : (asSecs nanos : K) = nanos / 10 ^ 9 := rfl

end F64

/-- Exact comparisons are those of an order. -/
instance [IsStrictOrderedRing K] : LawfulF64 K where
  lt_of_lt_of_le below bounded := by
    simp only [F64.exact_lt, F64.exact_le, decide_eq_true_eq] at below bounded ⊢
    exact lt_of_lt_of_le below bounded
  not_le_of_lt below := by
    simp only [F64.exact_lt, F64.exact_le, decide_eq_true_eq, decide_eq_false_iff_not] at below ⊢
    exact not_le_of_gt below
  lt_of_literal_lt below := by
    simpa only [F64.exact_lt, F64.exact_literal, decide_eq_true_eq, Rat.cast_lt] using below
  isFinite_literal _ := rfl

end Exact

/-- Floats read as rationals, which can be computed with. -/
instance : ExactF64 Rat := ⟨toString⟩

end Fusecraft
