import Dhava.Spec.VectorClock
import Mathlib.Order.Lattice

/-! The algebra of vector clocks: `compare` decides the order of the counters and `merge` is
its join. Everything here is about all clocks, whoever made them. -/

namespace Dhava

open Foundations

namespace VectorClock

/-! ### The loop of `compare` -/

/-- The body of the loop, for one node. -/
def lowerFlags (c : VectorClock) (other : Dict String ℤ) (flags : Bool × Bool) (node : String) :
    Bool × Bool :=
  let c1 := c.clocks.getD node 0
  let c2 := other.getD node 0
  (if c1 > c2 then false else flags.1, if c2 > c1 then false else flags.2)

theorem foldl_lowerFlags (c : VectorClock) (other : Dict String ℤ) (nodes : List String)
    (flags : Bool × Bool) :
    nodes.foldl (c.lowerFlags other) flags =
      (flags.1 && decide (∀ n ∈ nodes, ¬ c.clocks.getD n 0 > other.getD n 0),
        flags.2 && decide (∀ n ∈ nodes, ¬ other.getD n 0 > c.clocks.getD n 0)) := by
  induction nodes generalizing flags with
  | nil => simp
  | cons node rest ih =>
    rw [List.foldl_cons, ih]
    simp only [lowerFlags, List.forall_mem_cons, Bool.decide_and]
    by_cases h1 : c.clocks.getD node 0 > other.getD node 0 <;>
      by_cases h2 : other.getD node 0 > c.clocks.getD node 0 <;>
      simp [h1, h2]

/-- In whatever order the loop meets the nodes, its flags are the two that `compare` tests. -/
theorem compare_eq_loop (c : VectorClock) (other : Dict String ℤ) {nodes : List String}
    (hnodes : nodes.toFinset = c.clocks.keys ∪ other.keys) :
    c.compare other =
      if nodes = [] then .equal
      else
        let flags := nodes.foldl (c.lowerFlags other) (true, true)
        if flags.1 && flags.2 then .equal
        else if flags.1 then .before
        else if flags.2 then .after
        else .concurrent := by
  unfold compare
  simp only [foldl_lowerFlags, Bool.true_and, ← hnodes, List.mem_toFinset,
    List.toFinset_eq_empty_iff]

/-! ### Order and join -/

instance : SemilatticeSup VectorClock where
  sup a b := a.merge b.clocks
  le_sup_left a b := a.le_merge b.clocks
  le_sup_right a b := by
    have h := a.ofDict_le_merge b.clocks
    rwa [ofDict_clocks] at h
  sup_le a b c hac hbc := by
    rw [le_iff, get_merge, ofDict_clocks]
    exact sup_le hac hbc

theorem merge_eq_sup (a b : VectorClock) : a.merge b.clocks = a ⊔ b := rfl

/-- A raw dictionary counts as the clock that is built from it. -/
theorem merge_ofDict (a : VectorClock) (d : Dict String ℤ) :
    a.merge (ofDict d).clocks = a.merge d := by
  apply counts_injective
  rw [get_merge, get_merge, ofDict_clocks]

theorem clocks_injective : Function.Injective VectorClock.clocks := by
  intro a b h
  rw [← ofDict_clocks a, ← ofDict_clocks b, h]

/-- `compare` decides the causal order, which `dominates` reads the other way round. -/
theorem compare_decides_order (a b c : VectorClock) :
    (a.compare b.clocks = .equal ↔ a.clocks = b.clocks) ∧
      (a.compare b.clocks = .before ↔ (∀ n, a.get n ≤ b.get n) ∧ a.clocks ≠ b.clocks) ∧
      (a.compare b.clocks = .after ↔ b.compare a.clocks = .before) ∧
      (a.compare b.clocks = .concurrent ↔
        (∃ n, b.get n < a.get n) ∧ ∃ n, a.get n < b.get n) ∧
      (a.compare b.clocks = .concurrent ↔ b.compare a.clocks = .concurrent) ∧
      (a.compare b.clocks = .before → b.compare c.clocks = .before →
        a.compare c.clocks = .before) ∧
      a.dominates a.clocks = true ∧
      (a.dominates b.clocks = true → b.dominates a.clocks = true → a = b) ∧
      (a.dominates b.clocks = true → b.dominates c.clocks = true → a.dominates c.clocks = true) := by
  have hne : ∀ x y : VectorClock, ¬ x ≤ y ↔ ∃ n, y.get n < x.get n := by
    intro x y
    rw [le_iff, Pi.le_def, not_forall]
    exact exists_congr fun n => not_le
  refine ⟨compare_equal.trans clocks_injective.eq_iff.symm, ?_, ?_, ?_, ?_, ?_, ?_, ?_, ?_⟩
  · rw [compare_before, lt_iff_le_and_ne, clocks_injective.ne_iff]
    exact Iff.rfl
  · rw [compare_after, compare_before]
  · rw [compare_concurrent, hne, hne]
  · rw [compare_concurrent, compare_concurrent, and_comm]
  · rw [compare_before, compare_before, compare_before]
    exact lt_trans
  · exact dominates_iff.2 le_rfl
  · rw [dominates_iff, dominates_iff]
    exact fun hba hab => le_antisymm hab hba
  · rw [dominates_iff, dominates_iff, dominates_iff]
    exact fun hba hcb => hcb.trans hba

/-- `merge` is the least upper bound and `increment` goes strictly up. -/
theorem merge_least_upper_bound (a b c : VectorClock) (d : Dict String ℤ) (nodeId : String) :
    (a.merge b.clocks).dominates a.clocks = true ∧
      (a.merge b.clocks).dominates b.clocks = true ∧
      (c.dominates a.clocks = true → c.dominates b.clocks = true →
        c.dominates (a.merge b.clocks).clocks = true) ∧
      a.merge b.clocks = b.merge a.clocks ∧
      (a.merge b.clocks).merge c.clocks = a.merge (b.merge c.clocks).clocks ∧
      a.merge a.clocks = a ∧
      a.merge d = a.merge (ofDict d).clocks ∧
      a.compare (a.increment nodeId).clocks = .before := by
  simp only [dominates_iff, merge_eq_sup]
  exact ⟨le_sup_left, le_sup_right, sup_le, sup_comm a b, sup_assoc a b c, sup_idem a,
    (merge_ofDict a d).symm, compare_before.2 (lt_increment a nodeId)⟩

end VectorClock
end Dhava
