import Mathlib.Algebra.Order.Ring.Rat
import Mathlib.Data.Int.Log
import Mathlib.Data.Rat.Floor
import Mathlib.Tactic.Linarith

/-! Sums that round. Numbers are compared with such sums to tell which of two is later by a
margin; of the rounding this takes no more than that a nonnegative margin leads nowhere below.
The sum of two finite binary64 numbers is one of these. -/

namespace Foundations

/-- An addition that may round, but not below where it starts from if it adds a nonnegative. -/
structure RoundedSum where
  add : ℚ → ℚ → ℚ
  le_add : ∀ {x t : ℚ}, 0 ≤ t → x ≤ add x t

/-- What is past the margin above a number lies above it. -/
theorem RoundedSum.lt_of_add_lt (sum : RoundedSum) {x y t : ℚ} (ht : 0 ≤ t) (h : sum.add x t < y) :
    x < y :=
  (sum.le_add ht).trans_lt h

/-- Of two numbers at most one is past the margin above the other. -/
theorem RoundedSum.not_add_lt (sum : RoundedSum) {x y s t : ℚ} (hs : 0 ≤ s) (ht : 0 ≤ t)
    (h : sum.add x s < y) : ¬ sum.add y t < x :=
  fun h' => lt_asymm (sum.lt_of_add_lt hs h) (sum.lt_of_add_lt ht h')

namespace Binary64

/-- The nearest integer, the even one of two. -/
def nearestInt (q : ℚ) : ℤ :=
  if q - ⌊q⌋ < 1 / 2 then ⌊q⌋
  else if 1 / 2 < q - ⌊q⌋ then ⌊q⌋ + 1
  else if ⌊q⌋ % 2 = 0 then ⌊q⌋ else ⌊q⌋ + 1

/-- The exponent of the last of the 53 binary places. -/
def lastPlace (q : ℚ) : ℤ := Int.log 2 |q| - 52

/-- The nearest number of 53 places. A sum of two finite binary64 numbers has no place below
their last possible one; and one that is too great for the format compares with each finite
number as its infinity does. -/
def nearest (q : ℚ) : ℚ := nearestInt (q / 2 ^ lastPlace q) * 2 ^ lastPlace q

theorem le_nearestInt {n : ℤ} {q : ℚ} (h : (n : ℚ) ≤ q) : n ≤ nearestInt q := by
  have hfloor : n ≤ ⌊q⌋ := Int.le_floor.2 h
  unfold nearestInt
  split_ifs <;> omega

/-- Rounding does not lead below a multiple of the last place. -/
theorem mul_le_nearest {q : ℚ} {n : ℤ} (h : n * 2 ^ lastPlace q ≤ q) :
    n * 2 ^ lastPlace q ≤ nearest q := by
  have hplace : (0 : ℚ) < 2 ^ lastPlace q := zpow_pos two_pos _
  have hn : n ≤ nearestInt (q / 2 ^ lastPlace q) := le_nearestInt ((le_div_iff₀ hplace).2 h)
  exact mul_le_mul_of_nonneg_right (by exact_mod_cast hn) hplace.le

/-- Nor below a number of 53 places. -/
theorem le_nearest {x q : ℚ} (hx : nearest x = x) (h : x ≤ q) : x ≤ nearest q := by
  by_cases hplace : lastPlace q ≤ lastPlace x
  · -- a multiple of its own last place is one of each smaller
    obtain ⟨k, hk⟩ := Int.eq_ofNat_of_zero_le (sub_nonneg.2 hplace)
    have hmul : x = (nearestInt (x / 2 ^ lastPlace x) * 2 ^ k : ℤ) * 2 ^ lastPlace q := by
      rw [Int.cast_mul, Int.cast_pow, Int.cast_ofNat, mul_assoc, ← zpow_natCast,
        ← zpow_add₀ two_ne_zero, show (k : ℤ) + lastPlace q = lastPlace x by omega]
      exact hx.symm
    rw [hmul] at h ⊢
    exact mul_le_nearest h
  · have hlog : Int.log 2 |x| < Int.log 2 |q| := by
      unfold lastPlace at hplace
      omega
    rcases lt_trichotomy q 0 with hneg | rfl | hpos
    · have habs : |q| ≤ |x| := abs_le_abs_of_nonpos hneg.le h
      exact absurd hlog (Int.log_mono_right (abs_pos.2 hneg.ne) habs).not_gt
    · have hzero := mul_le_nearest (q := 0) (n := 0) (by simp)
      rw [Int.cast_zero, zero_mul] at hzero
      exact h.trans hzero
    · -- the power of two at the head of the greater number lies between them
      have hhead : ((2 ^ 52 : ℤ) : ℚ) * 2 ^ lastPlace q = 2 ^ Int.log 2 |q| := by
        rw [Int.cast_pow, Int.cast_ofNat, ← zpow_natCast, ← zpow_add₀ two_ne_zero]
        congr 1
        unfold lastPlace
        push_cast
        ring
      have hle : (2 : ℚ) ^ Int.log 2 |q| ≤ q := by
        have hself := Int.zpow_log_le_self Nat.one_lt_two (abs_pos.2 hpos.ne')
        rw [abs_of_pos hpos] at hself ⊢
        exact_mod_cast hself
      have hlt : |x| < (2 : ℚ) ^ (Int.log 2 |x| + 1) := by
        exact_mod_cast Int.lt_zpow_succ_log_self Nat.one_lt_two |x|
      calc x ≤ |x| := le_abs_self x
        _ ≤ 2 ^ (Int.log 2 |x| + 1) := hlt.le
        _ ≤ 2 ^ Int.log 2 |q| := zpow_le_zpow_right₀ one_le_two hlog
        _ = ((2 ^ 52 : ℤ) : ℚ) * 2 ^ lastPlace q := hhead.symm
        _ ≤ nearest q := mul_le_nearest (hhead.trans_le hle)

/-- Binary64 addition of binary64 numbers. -/
def sum : RoundedSum where
  add x t := if nearest x = x ∧ nearest t = t then nearest (x + t) else x + t
  le_add := by
    intro x t ht
    split_ifs with hfloat
    · exact le_nearest hfloat.1 (le_add_of_nonneg_right ht)
    · exact le_add_of_nonneg_right ht

/-- The number that the text `0.1` reads as, plus one, is the one that `1.1` reads as. -/
example : sum.add (3602879701896397 / 2 ^ 55) 1 = 2476979795053773 / 2 ^ 51 := by decide +kernel

end Binary64
end Foundations
