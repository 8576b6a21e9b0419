import Dhava.Foundations.Selection
import Dhava.Proofs.PullDelta
import Dhava.Proofs.Tombstones

/-! The store as a map. After any operations it holds, under each key, what the operations on
that key make one after the other; the query functions show this map, all of it and each
record once. -/

namespace Dhava

open Foundations

namespace LocalStore

variable {V : Type}

/-- The store after a list of operations. -/
def applied (ties : TieOrder) (ops : List (Operation V)) : LocalStore V :=
  ops.foldl (fun s op => (s.applyOperation op).1) (empty ties)

/-- What the operations on a key make of it, the others aside. -/
def latest (ops : List (Operation V)) (key : Key) : Option (Record V) :=
  (ops.filter fun op => op.key = key).foldl (fun row op => some (written row op)) none

/-! ### The map -/

theorem latest_concat (ops : List (Operation V)) (op : Operation V) (key : Key) :
    latest (ops ++ [op]) key =
      if key = op.key then some (written (latest ops key) op) else latest ops key := by
  unfold latest
  rw [List.filter_append]
  by_cases h : op.key = key
  · rw [List.filter_cons_of_pos (by simpa using h), List.filter_nil, List.foldl_append, if_pos h.symm]
    rfl
  · rw [List.filter_cons_of_neg (by simpa using h), List.filter_nil, List.append_nil, if_neg (Ne.symm h)]

theorem get_applied (ties : TieOrder) (ops : List (Operation V)) (key : Key) :
    (applied ties ops).get key true = latest ops key := by
  induction ops using List.reverseRecOn generalizing key with
  | nil => rfl
  | append_singleton ops op ih =>
    unfold applied at ih ⊢
    rw [List.foldl_concat, get_applyOperation, latest_concat]
    by_cases h : key = op.key
    · rw [if_pos h, if_pos h, ih, h]
    · rw [if_neg h, if_neg h, ih]

theorem mem_applied (ties : TieOrder) (ops : List (Operation V)) (r : Record V) :
    r ∈ (applied ties ops).records.rows ↔ latest ops r.key = some r := by
  rw [mem_rows_iff, get_applied]

theorem latest_eq_none {ops : List (Operation V)} {key : Key} (h : ∀ op ∈ ops, op.key ≠ key) :
    latest ops key = none := by
  unfold latest
  rw [List.filter_eq_nil_iff.2 fun op hop => by simpa using h op hop]
  rfl

/-- No more rows than operations. -/
theorem length_applied (ties : TieOrder) (ops : List (Operation V)) :
    (applied ties ops).records.rows.length ≤ ops.length := by
  have hsub : (applied ties ops).records.rows.map Record.key ⊆ ops.map Operation.key := by
    intro key hkey
    obtain ⟨r, hr, rfl⟩ := List.mem_map.1 hkey
    by_contra hnone
    have hlatest := (mem_applied ties ops r).1 hr
    rw [latest_eq_none fun op hop he => hnone (List.mem_map.2 ⟨op, hop, he⟩)] at hlatest
    cases hlatest
  have hle := ((applied ties ops).records.nodup.subperm hsub).length_le
  rwa [List.length_map, List.length_map] at hle

/-! ### What a query selects -/

/-- The rows a query selects, before it cuts its page. -/
def selected (s : LocalStore V) (collection : String) (keep : Dict String V → Bool)
    (includeDeleted : Bool) : List (Record V) :=
  let rows := s.records.rows.filter fun r => r.collection = collection
  (byLastModified s.ties (if includeDeleted then rows else rows.filter fun r => !r.deleted)).filter
    fun r => keep r.data

theorem query_eq (s : LocalStore V) (collection : String) (keep : Dict String V → Bool)
    (limit offset : ℕ) (includeDeleted : Bool) :
    s.query collection keep limit offset includeDeleted =
      ((s.selected collection keep includeDeleted).drop offset).take limit := rfl

theorem mem_selected (s : LocalStore V) (collection : String) (keep : Dict String V → Bool)
    (includeDeleted : Bool) (r : Record V) :
    r ∈ s.selected collection keep includeDeleted ↔
      r ∈ s.records.rows ∧ r.collection = collection ∧
        (includeDeleted = true ∨ r.deleted = false) ∧ keep r.data = true := by
  unfold selected
  rw [List.mem_filter, (perm_byLastModified _ _).mem_iff]
  cases includeDeleted with
  | true => simp [and_assoc]
  | false => simpa [and_assoc] using fun _ => and_left_comm

theorem nodup_selected (s : LocalStore V) (collection : String) (keep : Dict String V → Bool)
    (includeDeleted : Bool) : (s.selected collection keep includeDeleted).Nodup := by
  unfold selected
  refine ((perm_byLastModified _ _).nodup_iff.2 ?_).filter _
  cases includeDeleted with
  | true => exact s.nodup_rows.filter _
  | false => exact (s.nodup_rows.filter _).filter _

theorem sorted_selected (s : LocalStore V) (collection : String) (keep : Dict String V → Bool)
    (includeDeleted : Bool) :
    (s.selected collection keep includeDeleted).Pairwise
      fun a b => b.lastModified ≤ a.lastModified := by
  have : IsTrans (Record V) fun a b => b.lastModified ≤ a.lastModified :=
    ⟨fun _ _ _ h h' => h'.trans h⟩
  have : Std.Total fun a b : Record V => b.lastModified ≤ a.lastModified :=
    ⟨fun a b => le_total b.lastModified a.lastModified⟩
  exact (List.pairwise_insertionSort _ _).filter _

theorem length_selected_le (s : LocalStore V) (collection : String) (keep : Dict String V → Bool)
    (includeDeleted : Bool) :
    (s.selected collection keep includeDeleted).length ≤ s.records.rows.length :=
  ((s.nodup_selected collection keep includeDeleted).subperm
    fun r hr => ((s.mem_selected collection keep includeDeleted r).1 hr).1).length_le

theorem pages_eq (s : LocalStore V) (collection : String) (keep : Dict String V → Bool)
    (includeDeleted : Bool) {limit k : ℕ} (hk : s.records.rows.length ≤ k * limit) :
    ((List.range k).flatMap fun i => s.query collection keep limit (i * limit) includeDeleted) =
      s.selected collection keep includeDeleted := by
  simp only [query_eq]
  rw [flatMap_pages]
  exact List.take_of_length_le
    ((s.length_selected_le collection keep includeDeleted).trans hk)

theorem count_eq [DecidableEq V] (s : LocalStore V) (collection : String) (filters : Dict String V)
    (includeDeleted : Bool) :
    s.count collection filters includeDeleted =
      if filters.keys = ∅ then (s.selected collection (matchesFilters filters) includeDeleted).length
      else min 1000000 (s.selected collection (matchesFilters filters) includeDeleted).length := by
  unfold count
  by_cases h : filters.keys = ∅
  · have hall (l : List (Record V)) : l.filter (fun r => matchesFilters filters r.data) = l :=
      List.filter_eq_self.2 fun r _ => by simp [matchesFilters, h]
    rw [if_pos h, if_pos h]
    unfold selected
    dsimp only
    rw [hall, (perm_byLastModified _ _).length_eq]
  · rw [if_neg h, if_neg h, query_eq, List.drop_zero, List.length_take]

/-- A reader that takes page after page, of any size, gets every record the operations left
that it asked for, the newest first and each once; `count` says how many, up to the million it
stops at with filters. The collections named are those with a record that is not deleted. -/
theorem pages_show_latest [DecidableEq V] (ties : TieOrder) (ops : List (Operation V))
    (collection : String) (filters : Dict String V) (includeDeleted : Bool) {limit k : ℕ}
    (hk : ops.length ≤ k * limit) :
    let pages := (List.range k).flatMap fun i =>
      (applied ties ops).query collection (matchesFilters filters) limit (i * limit) includeDeleted
    pages.Nodup ∧ pages.Pairwise (fun a b => b.lastModified ≤ a.lastModified) ∧
      (∀ r, r ∈ pages ↔ latest ops r.key = some r ∧ r.collection = collection ∧
        (includeDeleted = true ∨ r.deleted = false) ∧ matchesFilters filters r.data = true) ∧
      (applied ties ops).count collection filters includeDeleted =
        (if filters.keys = ∅ then pages.length else min 1000000 pages.length) ∧
      (collection ∈ (applied ties ops).getAllCollections ↔
        ∃ r, latest ops r.key = some r ∧ r.collection = collection ∧ r.deleted = false) := by
  intro pages
  have hpages : pages =
      (applied ties ops).selected collection (matchesFilters filters) includeDeleted :=
    pages_eq _ _ _ _ ((length_applied ties ops).trans hk)
  rw [hpages]
  refine ⟨nodup_selected _ _ _ _, sorted_selected _ _ _ _, fun r => ?_, count_eq _ _ _ _, ?_⟩
  · rw [mem_selected, mem_applied]
  · simp only [mem_getAllCollections, mem_applied]

/-- Two pages of one record, over an update that a delete follows and one that stays. -/
theorem pages_show_latest_example :
    let ops : List (Operation ℕ) := [ConflictResolver.sampleUpdate "a" 0,
      ConflictResolver.sampleDelete "b" 1 ∅, { ConflictResolver.sampleUpdate "c" 2 with recordId := "q" }]
    let pages := (List.range 3).flatMap fun i =>
      (applied liveFirst ops).query "incidents" (matchesFilters ((∅ : Dict String ℕ).insert "c" 1))
        1 (i * 1)
    ops.length ≤ 3 * 1 ∧ pages.Nodup ∧
      (applied liveFirst ops).count "incidents" ((∅ : Dict String ℕ).insert "c" 1) =
        (if ((∅ : Dict String ℕ).insert "c" 1).keys = ∅ then pages.length
          else min 1000000 pages.length) :=
  have h := pages_show_latest liveFirst [ConflictResolver.sampleUpdate "a" 0,
    ConflictResolver.sampleDelete "b" 1 ∅, { ConflictResolver.sampleUpdate "c" 2 with recordId := "q" }]
    "incidents" ((∅ : Dict String ℕ).insert "c" 1) false (le_refl (3 * 1))
  ⟨le_rfl, h.1, h.2.2.2.1⟩

end LocalStore
end Dhava
