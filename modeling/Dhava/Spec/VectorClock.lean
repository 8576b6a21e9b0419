import Dhava.Foundations.Counters
import Dhava.Foundations.Dict
import Mathlib.Algebra.Order.Group.Abs
import Mathlib.Order.Basic

/-! Vector clocks (`vector_clock.py`). A `VectorClock` holds positive counters only, as
its constructor sees to; the dictionaries met on the wire and in the store are raw.
The order on clocks is that of their counters, a missing one counting as zero. -/

namespace Dhava

open Foundations

inductive Comparison
  | before
  | after
  | equal
  | concurrent
  deriving DecidableEq, Repr

structure VectorClock where
  clocks : Dict String ℤ
  pos : ∀ n v, clocks.lookup n = some v → 0 < v
  deriving DecidableEq

namespace VectorClock

/-- `VectorClock(clocks)`: `__post_init__` drops the entries that are not positive. -/
def ofDict (clocks : Dict String ℤ) : VectorClock where
  clocks := Dict.ofKeys (clocks.keys.filter fun n => 0 < clocks.getD n 0) fun n => clocks.getD n 0
  pos := by
    intro n v h
    rw [Dict.lookup_ofKeys] at h
    split_ifs at h with hn
    obtain rfl := Option.some.inj h
    exact (Finset.mem_filter.1 hn).2

def get (c : VectorClock) (nodeId : String) : ℤ := c.clocks.getD nodeId 0

def increment (c : VectorClock) (nodeId : String) : VectorClock :=
  ofDict (c.clocks.insert nodeId (c.clocks.getD nodeId 0 + 1))

def merge (c : VectorClock) (other : Dict String ℤ) : VectorClock :=
  let allNodes := c.clocks.keys ∪ other.keys
  ofDict (Dict.ofKeys allNodes fun n => max (c.clocks.getD n 0) (other.getD n 0))

def compare (c : VectorClock) (other : Dict String ℤ) : Comparison :=
  let allNodes := c.clocks.keys ∪ other.keys
  if allNodes = ∅ then .equal
  else
    let selfLeqOther := decide (∀ n ∈ allNodes, ¬ c.clocks.getD n 0 > other.getD n 0)
    let otherLeqSelf := decide (∀ n ∈ allNodes, ¬ other.getD n 0 > c.clocks.getD n 0)
    if selfLeqOther && otherLeqSelf then .equal
    else if selfLeqOther then .before
    else if otherLeqSelf then .after
    else .concurrent

def dominates (c : VectorClock) (other : Dict String ℤ) : Bool :=
  c.compare other = .after || c.compare other = .equal

/-! ### Counters -/

theorem get_nonneg (c : VectorClock) (n : String) : 0 ≤ c.get n := by
  unfold get Dict.getD
  cases h : c.clocks.lookup n with
  | none => rfl
  | some v => exact (c.pos n v h).le

theorem get_ofDict (d : Dict String ℤ) (n : String) : (ofDict d).get n = max (d.getD n 0) 0 := by
  unfold get ofDict
  rw [Dict.getD_ofKeys]
  by_cases h : n ∈ d
  · by_cases hp : 0 < d.getD n 0
    · rw [if_pos (by simp [Finmap.mem_keys, h, hp]), max_eq_left hp.le]
    · rw [if_neg (by simp [hp]), max_eq_right (not_lt.1 hp)]
  · rw [if_neg (by simp [Finmap.mem_keys, h]), Dict.getD_of_notMem h, max_self]

theorem ext_get {a b : VectorClock} (h : ∀ n, a.get n = b.get n) : a = b := by
  have hl : a.clocks = b.clocks := by
    refine Finmap.ext_lookup fun n => ?_
    have hn := h n
    unfold get Dict.getD at hn
    cases ha : a.clocks.lookup n with
    | none =>
      cases hb : b.clocks.lookup n with
      | none => rfl
      | some w =>
        rw [ha, hb] at hn
        exact absurd hn (b.pos n w hb).ne
    | some v =>
      cases hb : b.clocks.lookup n with
      | none =>
        rw [ha, hb] at hn
        exact absurd hn (a.pos n v ha).ne'
      | some w => rw [ha, hb] at hn; exact congrArg some hn
  cases a; cases b; congr

theorem counts_injective : Function.Injective VectorClock.get := fun _ _ h => ext_get (congrFun h)

instance : PartialOrder VectorClock where
  le a b := a.get ≤ b.get
  lt a b := a.get < b.get
  le_refl a := le_refl a.get
  le_trans _ _ _ := le_trans
  lt_iff_le_not_ge _ _ := lt_iff_le_not_ge
  le_antisymm _ _ h h' := counts_injective (le_antisymm h h')

theorem le_iff {a b : VectorClock} : a ≤ b ↔ a.get ≤ b.get := Iff.rfl

theorem lt_iff {a b : VectorClock} : a < b ↔ a.get < b.get := Iff.rfl

@[simp] theorem ofDict_clocks (c : VectorClock) : ofDict c.clocks = c :=
  ext_get fun n => (get_ofDict _ n).trans (max_eq_left (get_nonneg c n))

@[simp] theorem get_empty : (ofDict ∅).get = 0 := by
  funext n
  rw [get_ofDict]
  rfl

theorem get_increment (c : VectorClock) (n : String) : (c.increment n).get = bump n c.get := by
  funext m
  rw [increment, get_ofDict, Dict.getD_insert]
  have hm : 0 ≤ c.clocks.getD m 0 := get_nonneg c m
  split_ifs with h
  · subst h
    rw [bump_self]
    exact max_eq_left (by omega)
  · rw [bump_of_ne h]
    exact max_eq_left hm

theorem lt_increment (c : VectorClock) (n : String) : c < c.increment n := by
  rw [lt_iff, get_increment]
  exact lt_bump n c.get

theorem get_merge (c : VectorClock) (d : Dict String ℤ) : (c.merge d).get = c.get ⊔ (ofDict d).get := by
  funext n
  rw [merge, get_ofDict, Dict.getD_ofKeys, Pi.sup_apply, get_ofDict]
  have hn := get_nonneg c n
  change 0 ≤ c.clocks.getD n 0 at hn
  change _ = max (c.clocks.getD n 0) _
  split_ifs with h
  · omega
  · simp only [Finset.mem_union, Finmap.mem_keys, not_or] at h
    rw [Dict.getD_of_notMem h.1, Dict.getD_of_notMem h.2]
    rfl

theorem le_merge (c : VectorClock) (d : Dict String ℤ) : c ≤ c.merge d := by
  rw [le_iff, get_merge]
  exact le_sup_left

theorem ofDict_le_merge (c : VectorClock) (d : Dict String ℤ) : ofDict d ≤ c.merge d := by
  rw [le_iff, get_merge]
  exact le_sup_right

/-! ### Comparison decides the order -/

private theorem loop_flag (c d : VectorClock) :
    (∀ n ∈ c.clocks.keys ∪ d.clocks.keys, ¬ c.clocks.getD n 0 > d.clocks.getD n 0) ↔ c ≤ d := by
  constructor
  · intro h n
    change c.clocks.getD n 0 ≤ d.clocks.getD n 0
    by_cases hn : n ∈ c.clocks.keys ∪ d.clocks.keys
    · exact not_lt.1 (h n hn)
    · simp only [Finset.mem_union, Finmap.mem_keys, not_or] at hn
      rw [Dict.getD_of_notMem hn.1, Dict.getD_of_notMem hn.2]
  · intro h n _
    exact not_lt.2 (h n)

instance : DecidableLE VectorClock := fun c d => decidable_of_iff _ (loop_flag c d)

theorem compare_eq (c d : VectorClock) :
    c.compare d.clocks =
      if c ≤ d ∧ d ≤ c then .equal else if c ≤ d then .before else if d ≤ c then .after
      else .concurrent := by
  have hc := loop_flag c d
  have hd := loop_flag d c
  rw [Finset.union_comm] at hd
  unfold compare
  by_cases he : c.clocks.keys ∪ d.clocks.keys = ∅
  · have hcd : c ≤ d := hc.1 (by simp [he])
    have hdc : d ≤ c := hd.1 (by simp [he])
    rw [if_pos he, if_pos ⟨hcd, hdc⟩]
  · rw [if_neg he]
    simp only [hc, hd, Bool.and_eq_true, decide_eq_true_eq]

theorem compare_equal {c d : VectorClock} : c.compare d.clocks = .equal ↔ c = d := by
  rw [compare_eq, le_antisymm_iff (a := c)]
  split_ifs <;> simp_all

theorem compare_before {c d : VectorClock} : c.compare d.clocks = .before ↔ c < d := by
  rw [compare_eq, lt_iff_le_not_ge]
  split_ifs <;> simp_all

theorem compare_after {c d : VectorClock} : c.compare d.clocks = .after ↔ d < c := by
  rw [compare_eq, lt_iff_le_not_ge]
  split_ifs <;> simp_all

theorem compare_concurrent {c d : VectorClock} :
    c.compare d.clocks = .concurrent ↔ ¬ c ≤ d ∧ ¬ d ≤ c := by
  rw [compare_eq]
  split_ifs <;> simp_all

theorem dominates_iff {c d : VectorClock} : c.dominates d.clocks = true ↔ d ≤ c := by
  unfold dominates
  rw [Bool.or_eq_true, decide_eq_true_eq, decide_eq_true_eq, compare_after, compare_equal,
    le_iff_lt_or_eq, eq_comm (a := c)]

end VectorClock
end Dhava
