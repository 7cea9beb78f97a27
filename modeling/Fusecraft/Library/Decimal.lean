import Mathlib.Data.List.Induction
import Mathlib.Data.Nat.Basic
import Mathlib.Tactic.IntervalCases

/-!
# Zero-padded decimal names

Printing a number with a minimum width pads its decimal digits with zeros on
the left; reading folds the digits back.  On numbers below `10 ^ width` the
printed name has exactly `width` digits, and printing and reading are inverse
bijections between those numbers and the digit strings of that length.

The padded form is compared with the plain positional form `fixed`, whose
recursion peels the last digit; all arithmetic is done there.
-/

namespace Decimal

/-- The ASCII byte of a digit. -/
def byte (digit : Nat) : UInt8 := UInt8.ofNat (48 + digit)

def isDigit (b : UInt8) : Bool := 48 ≤ b && b ≤ 57

/-- The decimal digits of a number as ASCII bytes; zero has one digit. -/
def print (n : Nat) : List UInt8 :=
  (Nat.toDigits 10 n).map (fun c => UInt8.ofNat c.toNat)

/-- Printing with a minimum width and `0` as the fill. -/
def padded (width n : Nat) : List UInt8 :=
  (print n).leftpad width (byte 0)

/-- The value of a string of digits. -/
def value (bytes : List UInt8) : Nat :=
  bytes.foldl (fun acc b => acc * 10 + (b.toNat - 48)) 0

/-- The low-order digits of a number, exactly `width` of them. -/
def fixed : Nat -> Nat -> List UInt8
  | 0, _ => []
  | width + 1, n => fixed width (n / 10) ++ [byte (n % 10)]

theorem byte_toNat {digit : Nat} (small : digit < 10) : (byte digit).toNat = 48 + digit := by
  unfold byte
  rw [UInt8.toNat_ofNat']
  omega

theorem byte_isDigit {digit : Nat} (small : digit < 10) : isDigit (byte digit) = true := by
  interval_cases digit <;> decide

theorem isDigit_toNat {b : UInt8} (digit : isDigit b = true) : 48 ≤ b.toNat ∧ b.toNat ≤ 57 := by
  unfold isDigit at digit
  rw [Bool.and_eq_true, decide_eq_true_eq, decide_eq_true_eq, UInt8.le_iff_toNat_le,
    UInt8.le_iff_toNat_le] at digit
  exact digit

theorem byte_of_isDigit {b : UInt8} (digit : isDigit b = true) : byte (b.toNat - 48) = b := by
  have bounds := isDigit_toNat digit
  apply UInt8.toNat_inj.mp
  rw [byte_toNat (by omega)]
  omega

theorem digitChar_byte {digit : Nat} (small : digit < 10) :
    UInt8.ofNat (Nat.digitChar digit).toNat = byte digit := by
  interval_cases digit <;> rfl

theorem print_of_lt {n : Nat} (small : n < 10) : print n = [byte n] := by
  unfold print
  rw [Nat.toDigits_of_lt_base small, List.map_singleton, digitChar_byte small]

theorem print_of_le {n : Nat} (large : 10 ≤ n) : print n = print (n / 10) ++ [byte (n % 10)] := by
  unfold print
  rw [Nat.toDigits_of_base_le (by decide) large, List.map_append, List.map_singleton,
    digitChar_byte (Nat.mod_lt n (by decide))]

theorem fixed_zero (width : Nat) : fixed width 0 = List.replicate width (byte 0) := by
  induction width with
  | zero => rfl
  | succ width ih => rw [fixed, Nat.zero_div, Nat.zero_mod, ih, List.replicate_succ']

theorem fixed_length (width n : Nat) : (fixed width n).length = width := by
  induction width generalizing n with
  | zero => rfl
  | succ width ih => rw [fixed, List.length_append, ih, List.length_singleton]

theorem fixed_isDigit (width n : Nat) : forall b, b ∈ fixed width n -> isDigit b = true := by
  induction width generalizing n with
  | zero =>
      intro b member
      cases member
  | succ width ih =>
      intro b member
      rw [fixed, List.mem_append, List.mem_singleton] at member
      rcases member with member | rfl
      · exact ih _ b member
      · exact byte_isDigit (Nat.mod_lt n (by decide))

theorem value_append (bytes : List UInt8) (b : UInt8) :
    value (bytes ++ [b]) = value bytes * 10 + (b.toNat - 48) := by
  simp [value, List.foldl_append]

theorem value_fixed {width n : Nat} (small : n < 10 ^ width) : value (fixed width n) = n := by
  induction width generalizing n with
  | zero =>
      have zero : n = 0 := by omega
      rw [zero]
      rfl
  | succ width ih =>
      have head : n / 10 < 10 ^ width := by
        rw [Nat.div_lt_iff_lt_mul (by decide)]
        rwa [Nat.pow_succ] at small
      rw [fixed, value_append, ih head, byte_toNat (Nat.mod_lt n (by decide))]
      omega

/-- A string of digits is determined by its length and value. -/
theorem fixed_value (bytes : List UInt8) (digits : forall b, b ∈ bytes -> isDigit b = true) :
    fixed bytes.length (value bytes) = bytes := by
  induction bytes using List.reverseRecOn with
  | nil => rfl
  | append_singleton bytes b ih =>
      have last : isDigit b = true := digits b (by simp)
      have bounds := isDigit_toNat last
      have rest := ih (fun b' member => digits b' (List.mem_append_left _ member))
      rw [List.length_append, List.length_singleton, fixed, value_append]
      have quotient : (value bytes * 10 + (b.toNat - 48)) / 10 = value bytes := by omega
      have remainder : (value bytes * 10 + (b.toNat - 48)) % 10 = b.toNat - 48 := by omega
      rw [quotient, remainder, rest, byte_of_isDigit last]

/-- Where the number fits the width, padding prints the positional form. -/
theorem padded_eq_fixed {width n : Nat} (small : n < 10 ^ (width + 1)) :
    padded (width + 1) n = fixed (width + 1) n := by
  induction width generalizing n with
  | zero =>
      have small : n < 10 := by omega
      rw [padded, print_of_lt small, fixed, fixed, Nat.mod_eq_of_lt small]
      rfl
  | succ width ih =>
      rw [fixed]
      by_cases single : n < 10
      · rw [padded, print_of_lt single, Nat.div_eq_of_lt single, fixed_zero,
          Nat.mod_eq_of_lt single]
        rfl
      · have large : 10 ≤ n := Nat.le_of_not_lt single
        have head : n / 10 < 10 ^ (width + 1) := by
          rw [Nat.div_lt_iff_lt_mul (by decide)]
          rwa [Nat.pow_succ] at small
        rw [← ih head, padded, padded, print_of_le large, List.leftpad, List.leftpad,
          List.length_append, List.length_singleton, List.append_assoc]
        congr 2
        omega

theorem padded_length {width n : Nat} (small : n < 10 ^ (width + 1)) :
    (padded (width + 1) n).length = width + 1 := by
  rw [padded_eq_fixed small, fixed_length]

theorem padded_isDigit {width n : Nat} (small : n < 10 ^ (width + 1)) :
    forall b, b ∈ padded (width + 1) n -> isDigit b = true := by
  rw [padded_eq_fixed small]
  exact fixed_isDigit _ _

/-- Reading undoes printing. -/
theorem value_padded {width n : Nat} (small : n < 10 ^ (width + 1)) :
    value (padded (width + 1) n) = n := by
  rw [padded_eq_fixed small, value_fixed small]

theorem value_lt (bytes : List UInt8) (digits : forall b, b ∈ bytes -> isDigit b = true) :
    value bytes < 10 ^ bytes.length := by
  induction bytes using List.reverseRecOn with
  | nil => decide
  | append_singleton bytes b ih =>
      have bounds := isDigit_toNat (digits b (by simp))
      have rest := ih (fun b' member => digits b' (List.mem_append_left _ member))
      rw [value_append, List.length_append, List.length_singleton, Nat.pow_succ]
      omega

/-- Reading undoes plain printing too. -/
theorem value_print (n : Nat) : value (print n) = n := by
  induction n using Nat.strong_induction_on with
  | _ n ih =>
      by_cases small : n < 10
      · have digit := byte_toNat small
        rw [print_of_lt small, ← List.nil_append [byte n], value_append, digit]
        change 0 * 10 + (48 + n - 48) = n
        omega
      · have large : 10 ≤ n := Nat.le_of_not_lt small
        have last := byte_toNat (Nat.mod_lt n (by decide : 0 < 10))
        rw [print_of_le large, value_append, ih (n / 10) (by omega), last]
        omega

theorem print_injective {n m : Nat} (same : print n = print m) : n = m := by
  rw [← value_print n, same, value_print]

theorem print_isDigit (n : Nat) : forall b, b ∈ print n -> isDigit b = true := by
  induction n using Nat.strong_induction_on with
  | _ n ih =>
      intro b inside
      by_cases small : n < 10
      · rw [print_of_lt small, List.mem_singleton] at inside
        exact inside ▸ byte_isDigit small
      · have large : 10 ≤ n := Nat.le_of_not_lt small
        rw [print_of_le large, List.mem_append, List.mem_singleton] at inside
        rcases inside with inside | rfl
        · exact ih (n / 10) (by omega) b inside
        · exact byte_isDigit (Nat.mod_lt n (by decide))

/-- Printing undoes reading, on digit strings of the given width. -/
theorem padded_value {width : Nat} {bytes : List UInt8} (length : bytes.length = width + 1)
    (digits : forall b, b ∈ bytes -> isDigit b = true) :
    padded (width + 1) (value bytes) = bytes := by
  have small := value_lt bytes digits
  rw [length] at small
  rw [padded_eq_fixed small, ← length, fixed_value bytes digits]

end Decimal
