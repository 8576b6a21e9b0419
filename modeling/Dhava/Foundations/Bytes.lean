import Mathlib.Data.List.Basic
import Mathlib.Data.List.Induction
import Mathlib.Tactic.NormNum

/-! Unsigned integers in a fixed number of bytes, the most significant first. -/

namespace Foundations

def bigEndian : ℕ → ℕ → List UInt8
  | 0, _ => []
  | w + 1, n => bigEndian w (n / 256) ++ [UInt8.ofNat n]

def readBigEndian (bytes : List UInt8) : ℕ := bytes.foldl (fun n b => n * 256 + b.toNat) 0

@[simp] theorem length_bigEndian (w n : ℕ) : (bigEndian w n).length = w := by
  induction w generalizing n with
  | zero => rfl
  | succ w ih => rw [bigEndian, List.length_append, ih]; rfl

theorem readBigEndian_concat (bytes : List UInt8) (b : UInt8) :
    readBigEndian (bytes ++ [b]) = readBigEndian bytes * 256 + b.toNat := by
  simp [readBigEndian]

theorem readBigEndian_bigEndian {w n : ℕ} (h : n < 256 ^ w) : readBigEndian (bigEndian w n) = n := by
  induction w generalizing n with
  | zero =>
    rw [pow_zero, Nat.lt_one_iff] at h
    subst h
    rfl
  | succ w ih =>
    have hq : n / 256 < 256 ^ w := by
      rw [Nat.div_lt_iff_lt_mul (by norm_num), ← pow_succ]
      exact h
    rw [bigEndian, readBigEndian_concat, ih hq, UInt8.toNat_ofNat']
    omega

theorem readBigEndian_lt (bytes : List UInt8) : readBigEndian bytes < 256 ^ bytes.length := by
  induction bytes using List.reverseRecOn with
  | nil => exact Nat.one_pos
  | append_singleton l b ih =>
    have hb := b.toNat_lt
    rw [readBigEndian_concat, List.length_append, List.length_singleton, pow_succ]
    omega

/-- Every string of `w` bytes is the form of the number it is read as. -/
theorem bigEndian_readBigEndian (bytes : List UInt8) :
    bigEndian bytes.length (readBigEndian bytes) = bytes := by
  induction bytes using List.reverseRecOn with
  | nil => rfl
  | append_singleton l b ih =>
    have hb := b.toNat_lt
    have hdiv : (readBigEndian l * 256 + b.toNat) / 256 = readBigEndian l := by omega
    have hlast : UInt8.ofNat (readBigEndian l * 256 + b.toNat) = b := by
      apply UInt8.toNat_inj.1
      rw [UInt8.toNat_ofNat']
      omega
    rw [readBigEndian_concat, List.length_append, List.length_singleton, bigEndian, hdiv, ih, hlast]

end Foundations
