import Mathlib.Data.Finmap
import Mathlib.Data.Finset.Sort

/-! Finite dictionaries: Mathlib's `Finmap` at a constant value type, with the dictionary
operations it lacks. Two dictionaries are equal when they hold the same bindings,
whatever order these were written in. -/

namespace Foundations

abbrev Dict (κ V : Type*) := Finmap (fun _ : κ => V)

namespace Dict

variable {κ V : Type*}

/-- The dictionary with a binding for each key of `s`. -/
def ofKeys (s : Finset κ) (f : κ → V) : Dict κ V where
  entries := s.val.map fun k => ⟨k, f k⟩
  nodupKeys := by
    rw [← Multiset.nodup_keys, Multiset.keys, Multiset.map_map]
    simpa using s.nodup

theorem mem_ofKeys (s : Finset κ) (f : κ → V) (k : κ) : k ∈ ofKeys s f ↔ k ∈ s := by
  simp [Finmap.mem_def, ofKeys, Multiset.keys]

variable [DecidableEq κ]

/-- The binding of `k`, or `v` where there is none. -/
def getD (d : Dict κ V) (k : κ) (v : V) : V := (d.lookup k).getD v

/-- `d` with the bindings of `e` written over it. -/
def update (d e : Dict κ V) : Dict κ V := e ∪ d

theorem lookup_ofKeys (s : Finset κ) (f : κ → V) (k : κ) :
    (ofKeys s f).lookup k = if k ∈ s then some (f k) else none := by
  split_ifs with h
  · rw [Finmap.lookup_eq_some_iff]
    simp [ofKeys, h]
  · rwa [Finmap.lookup_eq_none, mem_ofKeys]

theorem getD_ofKeys (s : Finset κ) (f : κ → V) (k : κ) (v : V) :
    (ofKeys s f).getD k v = if k ∈ s then f k else v := by
  rw [getD, lookup_ofKeys]
  split_ifs <;> rfl

theorem getD_of_notMem {d : Dict κ V} {k : κ} (h : k ∉ d) (v : V) : d.getD k v = v := by
  rw [getD, Finmap.lookup_eq_none.2 h]
  rfl

theorem getD_insert (d : Dict κ V) (a k : κ) (b v : V) :
    Dict.getD (d.insert a b) k v = if k = a then b else d.getD k v := by
  unfold getD
  split_ifs with h
  · rw [h, Finmap.lookup_insert, Option.getD_some]
  · rw [Finmap.lookup_insert_of_ne _ h]

theorem lookup_update (d e : Dict κ V) (k : κ) :
    (d.update e).lookup k = (e.lookup k).or (d.lookup k) := by
  unfold update
  by_cases h : k ∈ e
  · obtain ⟨b, hb⟩ := Finmap.mem_iff.1 h
    rw [Finmap.lookup_union_left h, hb, Option.some_or]
  · rw [Finmap.lookup_union_right h, Finmap.lookup_eq_none.2 h, Option.none_or]

/-- Overriding gives the same result from two dictionaries exactly when they agree on
every key that is not overridden. -/
theorem update_eq_update_iff (d d' e : Dict κ V) :
    d.update e = d'.update e ↔ ∀ k, k ∉ e → d.lookup k = d'.lookup k := by
  constructor
  · intro h k hk
    have := congrArg (Finmap.lookup k) h
    rwa [lookup_update, lookup_update, Finmap.lookup_eq_none.2 hk, Option.none_or,
      Option.none_or] at this
  · intro h
    refine Finmap.ext_lookup fun k => ?_
    rw [lookup_update, lookup_update]
    by_cases hk : k ∈ e
    · obtain ⟨b, hb⟩ := Finmap.mem_iff.1 hk
      rw [hb, Option.some_or, Option.some_or]
    · rw [h k hk]

/-- The bindings in the order of their keys. -/
def sortedEntries [LinearOrder κ] (d : Dict κ V) : List (κ × V) :=
  (d.keys.sort (· ≤ ·)).filterMap fun k => (d.lookup k).map fun v => (k, v)

theorem keys_sortedEntries [LinearOrder κ] (d : Dict κ V) :
    d.sortedEntries.map Prod.fst = d.keys.sort (· ≤ ·) := by
  have hkey : ∀ k ∈ d.keys.sort (· ≤ ·),
      ((d.lookup k).map fun v => (k, v)).map Prod.fst = some k := by
    intro k hk
    obtain ⟨v, hv⟩ := Finmap.mem_iff.1 (Finmap.mem_keys.1 ((Finset.mem_sort _).1 hk))
    rw [hv]
    rfl
  rw [sortedEntries, List.map_filterMap, List.filterMap_congr hkey, List.filterMap_some]

theorem mem_sortedEntries [LinearOrder κ] {d : Dict κ V} {k : κ} {v : V} :
    (k, v) ∈ d.sortedEntries ↔ d.lookup k = some v := by
  rw [sortedEntries, List.mem_filterMap]
  constructor
  · rintro ⟨k', -, h⟩
    obtain ⟨v', hv', heq⟩ := Option.map_eq_some_iff.1 h
    cases heq
    exact hv'
  · intro h
    refine ⟨k, (Finset.mem_sort _).2 (Finmap.mem_keys.2 (Finmap.mem_iff.2 ⟨v, h⟩)), ?_⟩
    rw [h]
    rfl

end Dict
end Foundations
