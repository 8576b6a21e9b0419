import Mathlib.Algebra.Order.Group.Int
import Mathlib.Algebra.Order.Group.Unbundled.Basic
import Mathlib.Data.Int.ConditionallyCompleteOrder
import Mathlib.Data.Set.Insert
import Mathlib.Order.Lattice
import Mathlib.Tactic.Linarith

/-! Counter vectors under the pointwise order, and histories of stamps in which a node
bumps its own counter on top of an earlier stamp. -/

namespace Foundations

variable {N : Type*} [DecidableEq N]

/-- One more write by `n`. -/
def bump (n : N) (c : N → ℤ) : N → ℤ := Function.update c n (c n + 1)

@[simp] theorem bump_self (n : N) (c : N → ℤ) : bump n c n = c n + 1 := Function.update_self ..

@[simp] theorem bump_of_ne {n m : N} (h : m ≠ n) (c : N → ℤ) : bump n c m = c m :=
  Function.update_of_ne h ..

theorem le_bump (n : N) (c : N → ℤ) : c ≤ bump n c := by
  intro m
  change c m ≤ bump n c m
  by_cases h : m = n
  · subst h; rw [bump_self]; omega
  · rw [bump_of_ne h]

theorem lt_bump (n : N) (c : N → ℤ) : c < bump n c := by
  refine lt_of_le_not_ge (le_bump n c) fun h => ?_
  have hn : bump n c n ≤ c n := h n
  rw [bump_self] at hn
  omega

/-- A vector lies below a bump, with room in the bumped counter, exactly when it lies
below the vector that was bumped. -/
theorem le_iff_lt_bump (n : N) (a c : N → ℤ) : a ≤ c ↔ a < bump n c ∧ a n < bump n c n := by
  constructor
  · intro h
    refine ⟨h.trans_lt (lt_bump n c), ?_⟩
    have hn : a n ≤ c n := h n
    rw [bump_self]
    omega
  · rintro ⟨hlt, hn⟩ m
    change a m ≤ c m
    by_cases hm : m = n
    · subst hm; rw [bump_self] at hn; omega
    · have hle : a m ≤ bump n c m := hlt.le m
      rwa [bump_of_ne hm] at hle

/-- Every value a counter shows in a stamp was once its owner's own count, in a stamp
that lies below. -/
def Attested (S : Set (N × (N → ℤ))) : Prop :=
  ∀ m c, (m, c) ∈ S → ∀ n j, 0 < j → j ≤ c n → ∃ c', (n, c') ∈ S ∧ c' n = j ∧ c' ≤ c

/-- Stamping on top of zero or of an earlier stamp keeps a history attested. -/
theorem Attested.stamp {S : Set (N × (N → ℤ))} (h : Attested S) (n : N) {b : N → ℤ}
    (hb : b = 0 ∨ ∃ m, (m, b) ∈ S) : Attested (insert (n, bump n b) S) := by
  have hbase : ∀ k j, 0 < j → j ≤ b k → ∃ c', (k, c') ∈ S ∧ c' k = j ∧ c' ≤ b := by
    intro k j hj hk
    rcases hb with rfl | ⟨m, hm⟩
    · exact absurd (hj.trans_le hk) (lt_irrefl _)
    · exact h m b hm k j hj hk
  rintro m c (hmc | hmc) k j hj hk
  · obtain ⟨rfl, rfl⟩ := Prod.mk.inj hmc
    by_cases hnew : k = m ∧ j = b k + 1
    · -- the new stamp attests its own count
      obtain ⟨rfl, rfl⟩ := hnew
      exact ⟨_, Set.mem_insert _ _, bump_self _ _, le_rfl⟩
    · have hkb : j ≤ b k := by
        by_cases hkn : k = m
        · subst hkn
          rw [bump_self] at hk
          have : j ≠ b k + 1 := fun hjb => hnew ⟨rfl, hjb⟩
          omega
        · rwa [bump_of_ne hkn] at hk
      obtain ⟨c', hc', hj', hle⟩ := hbase k j hj hkb
      exact ⟨c', Set.mem_insert_of_mem _ hc', hj', hle.trans (le_bump _ _)⟩
  · obtain ⟨c', hc', hj', hle⟩ := h m c hmc k j hj hk
    exact ⟨c', Set.mem_insert_of_mem _ hc', hj', hle⟩

omit [DecidableEq N] in
/-- Where a count was used for one stamp only, any stamp that shows the count has that
stamp below it. -/
theorem Attested.le_of_unique {S : Set (N × (N → ℤ))} (h : Attested S) {m n : N} {c d : N → ℤ}
    (hc : (m, c) ∈ S) (hpos : 0 < d n)
    (huniq : ∀ d', (n, d') ∈ S → d' n = d n → d' = d) (hle : d n ≤ c n) : d ≤ c := by
  obtain ⟨d', hd', hn, hd'c⟩ := h m c hc n (d n) hpos hle
  rwa [← huniq d' hd' hn]

end Foundations
