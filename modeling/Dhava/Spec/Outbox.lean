import Dhava.Foundations.Keyed
import Dhava.Spec.Models
import Mathlib.Algebra.Order.Ring.Rat
import Mathlib.Data.List.Sort
import Mathlib.Tactic.Linarith

/-! The persistent outbox (`outbox.py`) over the `outbox` table of `backends/sqlite.py`.
A row carries the columns of an operation, so a row is an `Operation`. -/

namespace Dhava

open Foundations

structure OutboxQueue (V : Type) where
  table : Keyed (Operation.opId (V := V))
  syncLocked : Bool := false

namespace OutboxQueue

variable {V : Type}

def empty : OutboxQueue V := { table := Keyed.empty }

def rows (q : OutboxQueue V) : List (Operation V) := q.table.rows

/-- The insert raises where the id is taken. -/
def enqueue (q : OutboxQueue V) (op : Operation V) : Except String (OutboxQueue V) :=
  match q.table.insert? op with
  | some table => .ok { q with table }
  | none => .error "UNIQUE constraint failed: outbox.op_id"

def pendingCount (q : OutboxQueue V) (priority : Option Priority := none) : ℕ :=
  (q.rows.filter fun op => op.syncState = .pending && priority.all fun p => op.priority = p).length

/-- The `ORDER BY` of `get_pending`; rows that tie stay in table order. -/
def SendsBefore (a b : Operation V) : Prop :=
  a.priority.level < b.priority.level ∨
    (a.priority.level = b.priority.level ∧ a.timestamp ≤ b.timestamp)

instance : DecidableRel (SendsBefore (V := V)) := fun _ _ => inferInstanceAs (Decidable (_ ∨ (_ ∧ _)))

/-- The `WHERE` clause of `get_pending`. `max_priority` counts only without `priority`. -/
def selects (priority maxPriority : Option Priority) (collection : Option String)
    (op : Operation V) : Bool :=
  op.syncState = .pending &&
    (match priority, maxPriority with
      | some p, _ => op.priority = p
      | none, some m => op.priority ∈ Priority.all.filter fun p => p.level ≤ m.level
      | none, none => true) &&
    collection.all fun c => op.collection = c

/-- `LIMIT n`; a negative limit is none. -/
def limited {α : Type} (n : ℤ) (l : List α) : List α := if n < 0 then l else l.take n.toNat

def getPending (q : OutboxQueue V) (limit : ℤ := 100) (priority : Option Priority := none)
    (maxPriority : Option Priority := none) (collection : Option String := none) :
    List (Operation V) :=
  limited limit ((q.rows.filter (selects priority maxPriority collection)).insertionSort SendsBefore)

/-- `UPDATE outbox SET f WHERE op_id IN ids`. -/
def setWhere (q : OutboxQueue V) (ids : List String) (f : Operation V → Operation V)
    (hf : ∀ op, (f op).opId = op.opId) : OutboxQueue V :=
  { q with table := q.table.update (fun op => op.opId ∈ ids) f hf }

def markSynced (q : OutboxQueue V) (opIds : List String) (now : ℚ) : OutboxQueue V :=
  q.setWhere opIds (fun op => { op with syncState := .synced, syncedAt := some now }) fun _ => rfl

def markFailed (q : OutboxQueue V) (opIds : List String) (error : String) : OutboxQueue V :=
  q.setWhere opIds
    (fun op => { op with
      syncState := .failed, syncAttempts := op.syncAttempts + 1, lastError := some error })
    fun _ => rfl

def resetInFlight (q : OutboxQueue V) : OutboxQueue V :=
  let table := q.table.update (fun op => op.syncState = .failed)
    (fun op => { op with syncState := .pending }) fun _ => rfl
  { q with table }

/-- A row without `synced_at` compares with the cutoff as unknown, and stays. -/
def purgeSynced (q : OutboxQueue V) (now : ℚ) (olderThanSeconds : ℚ := 2592000) : OutboxQueue V :=
  let table := q.table.delete fun op =>
    op.syncState = .synced && op.syncedAt.any fun t => t < now - olderThanSeconds
  { q with table }

def lock (q : OutboxQueue V) : OutboxQueue V × Bool :=
  if q.syncLocked then (q, false) else ({ q with syncLocked := true }, true)

def unlock (q : OutboxQueue V) : OutboxQueue V := { q with syncLocked := false }

def isLocked (q : OutboxQueue V) : Bool := q.syncLocked

/-! ### What each operation does to the rows -/

@[simp] theorem rows_empty : (empty : OutboxQueue V).rows = [] := rfl

@[simp] theorem rows_lock (q : OutboxQueue V) : q.lock.1.rows = q.rows := by
  unfold lock
  split_ifs <;> rfl

theorem eq_of_opId {q : OutboxQueue V} {a b : Operation V} (ha : a ∈ q.rows) (hb : b ∈ q.rows)
    (h : a.opId = b.opId) : a = b := q.table.eq_of_key_eq ha hb h

theorem enqueue_ok {q q' : OutboxQueue V} {op : Operation V} (h : q.enqueue op = .ok q') :
    q'.rows = q.rows ++ [op] := by
  unfold enqueue at h
  cases hi : q.table.insert? op with
  | none => simp [hi] at h
  | some t =>
    rw [hi] at h
    obtain rfl := Except.ok.inj h
    exact (Keyed.insert?_rows hi).2

theorem syncLocked_enqueue {q q' : OutboxQueue V} {op : Operation V} (h : q.enqueue op = .ok q') :
    q'.syncLocked = q.syncLocked := by
  unfold enqueue at h
  cases hi : q.table.insert? op with
  | none => simp [hi] at h
  | some t =>
    rw [hi] at h
    obtain rfl := Except.ok.inj h
    rfl

/-- `lock()` returns `True` if it has taken a free lock. -/
theorem lock_eq_true {q : OutboxQueue V} (h : q.lock.2 = true) :
    q.syncLocked = false ∧ q.lock.1.syncLocked = true := by
  unfold lock at h ⊢
  split_ifs at h ⊢ with hlocked
  exact ⟨by simpa using hlocked, rfl⟩

theorem enqueue_fresh (q : OutboxQueue V) {op : Operation V}
    (h : ∀ r ∈ q.rows, r.opId ≠ op.opId) : ∃ q', q.enqueue op = .ok q' := by
  obtain ⟨t, ht⟩ := q.table.insert?_isSome op (by simpa [rows] using h)
  exact ⟨{ q with table := t }, by rw [enqueue, ht]⟩

/-- An id that is free is enqueued, a taken one raises. -/
theorem enqueue_cases (q : OutboxQueue V) (op : Operation V) :
    (∃ q', q.enqueue op = .ok q' ∧ q'.rows = q.rows ++ [op] ∧ ∀ r ∈ q.rows, r.opId ≠ op.opId) ∨
      ((∃ exc, q.enqueue op = .error exc) ∧ ∃ r ∈ q.rows, r.opId = op.opId) := by
  by_cases hfree : ∀ r ∈ q.rows, r.opId ≠ op.opId
  · obtain ⟨q', hq⟩ := q.enqueue_fresh hfree
    exact Or.inl ⟨q', hq, enqueue_ok hq, hfree⟩
  · push Not at hfree
    refine Or.inr ⟨?_, hfree⟩
    unfold enqueue
    rw [(Keyed.insert?_eq_none q.table op).2 (List.mem_map.2 hfree)]
    exact ⟨_, rfl⟩

theorem mem_setWhere {q : OutboxQueue V} {ids : List String} {f : Operation V → Operation V}
    {hf : ∀ op, (f op).opId = op.opId} {r : Operation V} :
    r ∈ (q.setWhere ids f hf).rows ↔ ∃ r₀ ∈ q.rows, r = if r₀.opId ∈ ids then f r₀ else r₀ := by
  unfold setWhere rows
  simp only [Keyed.mem_update, decide_eq_true_eq]

theorem rows_setWhere (q : OutboxQueue V) (ids : List String)
    (f : Operation V → Operation V) (hf : ∀ op, (f op).opId = op.opId) :
    (q.setWhere ids f hf).rows = q.rows.map fun op => if op.opId ∈ ids then f op else op := by
  change q.table.rows.map _ = q.table.rows.map _
  simp only [decide_eq_true_eq]

/-- The same `UPDATE` on the same rows. -/
theorem rows_setWhere_congr {q q' : OutboxQueue V} (h : q.rows = q'.rows)
    (ids : List String) (f : Operation V → Operation V) (hf : ∀ op, (f op).opId = op.opId) :
    (q.setWhere ids f hf).rows = (q'.setWhere ids f hf).rows := by
  rw [rows_setWhere, rows_setWhere, h]

theorem forall₂_setWhere {q : OutboxQueue V} {ids : List String}
    {f : Operation V → Operation V} {hf : ∀ op, (f op).opId = op.opId}
    {R : Operation V → Operation V → Prop} (hother : ∀ r, R r r)
    (hlisted : ∀ r, r.opId ∈ ids → R r (f r)) :
    List.Forall₂ R q.rows (q.setWhere ids f hf).rows := by
  rw [rows_setWhere, List.forall₂_map_right_iff, List.forall₂_same]
  intro r _
  split_ifs with hmem
  · exact hlisted r hmem
  · exact hother r

theorem setWhere_nil (q : OutboxQueue V) (f : Operation V → Operation V)
    (hf : ∀ op, (f op).opId = op.opId) : q.setWhere [] f hf = q := by
  have hrows : (q.setWhere [] f hf).table.rows = q.table.rows := by
    change (q.setWhere [] f hf).rows = q.rows
    rw [rows_setWhere]
    simp
  exact congrArg (fun table => { q with table }) (Keyed.eq_of_rows_eq hrows)

theorem mem_markSynced {q : OutboxQueue V} {ids : List String} {now : ℚ} {r : Operation V} :
    r ∈ (q.markSynced ids now).rows ↔ ∃ r₀ ∈ q.rows,
      r = if r₀.opId ∈ ids then { r₀ with syncState := .synced, syncedAt := some now } else r₀ :=
  mem_setWhere

theorem mem_markFailed {q : OutboxQueue V} {ids : List String} {e : String} {r : Operation V} :
    r ∈ (q.markFailed ids e).rows ↔ ∃ r₀ ∈ q.rows,
      r = if r₀.opId ∈ ids then
        { r₀ with syncState := .failed, syncAttempts := r₀.syncAttempts + 1, lastError := some e }
        else r₀ :=
  mem_setWhere

theorem mem_resetInFlight {q : OutboxQueue V} {r : Operation V} :
    r ∈ q.resetInFlight.rows ↔ ∃ r₀ ∈ q.rows,
      r = if r₀.syncState = .failed then { r₀ with syncState := .pending } else r₀ := by
  unfold resetInFlight rows
  simp only [Keyed.mem_update, decide_eq_true_eq]

theorem mem_purgeSynced {q : OutboxQueue V} {now older : ℚ} {r : Operation V} :
    r ∈ (q.purgeSynced now older).rows ↔
      r ∈ q.rows ∧ ¬ (r.syncState = .synced ∧ ∃ t, r.syncedAt = some t ∧ t < now - older) := by
  unfold purgeSynced rows
  rw [Keyed.mem_delete]
  cases r.syncedAt <;> simp

/-! ### Selection and order -/

instance : Std.Total (SendsBefore (V := V)) where
  total a b := by
    unfold SendsBefore
    rcases lt_trichotomy a.priority.level b.priority.level with h | h | h
    · exact Or.inl (Or.inl h)
    · rcases le_total a.timestamp b.timestamp with ht | ht
      · exact Or.inl (Or.inr ⟨h, ht⟩)
      · exact Or.inr (Or.inr ⟨h.symm, ht⟩)
    · exact Or.inr (Or.inl h)

instance : IsTrans (Operation V) SendsBefore where
  trans a b c := by
    rintro (h | ⟨h, ht⟩) (h' | ⟨h', ht'⟩)
    · exact Or.inl (h.trans h')
    · exact Or.inl (h' ▸ h)
    · exact Or.inl (h ▸ h')
    · exact Or.inr ⟨h.trans h', ht.trans ht'⟩

theorem limited_initial {α : Type} (n : ℤ) (l : List α) : limited n l <+: l := by
  unfold limited
  split_ifs
  · exact List.prefix_refl _
  · exact List.take_prefix _ _

theorem length_limited {α : Type} (n : ℤ) (l : List α) :
    (limited n l).length = if n < 0 then l.length else min n.toNat l.length := by
  unfold limited
  split_ifs
  · rfl
  · exact List.length_take

theorem limited_of_le {α : Type} {n : ℤ} {l : List α} (h : (l.length : ℤ) ≤ n) : limited n l = l := by
  unfold limited
  split_ifs
  · rfl
  · exact List.take_of_length_le (by omega)

theorem mem_getPending {q : OutboxQueue V} {n : ℤ} {p m : Option Priority} {c : Option String}
    {op : Operation V} (h : op ∈ q.getPending n p m c) : op ∈ q.rows ∧ selects p m c op = true := by
  have := (limited_initial _ _).subset h
  rwa [List.mem_insertionSort, List.mem_filter] at this

theorem pending_of_selects {p m : Option Priority} {c : Option String} {op : Operation V}
    (h : selects p m c op = true) : op.syncState = .pending := by
  simp only [selects, Bool.and_eq_true, decide_eq_true_eq] at h
  exact h.1.1

/-- With room for the whole outbox and no filter, exactly the pending rows are returned. -/
theorem mem_getPending_all (q : OutboxQueue V) {n : ℤ} (hn : (q.rows.length : ℤ) ≤ n)
    (op : Operation V) : op ∈ q.getPending n ↔ op ∈ q.rows ∧ op.syncState = .pending := by
  unfold getPending
  rw [limited_of_le, List.mem_insertionSort, List.mem_filter]
  · simp [selects]
  · rw [List.length_insertionSort]
    exact le_trans (by exact_mod_cast List.length_filter_le _ _) hn

theorem pairwise_getPending (q : OutboxQueue V) (n : ℤ) (p m : Option Priority) (c : Option String) :
    (q.getPending n p m c).Pairwise SendsBefore :=
  (List.pairwise_insertionSort _ _).sublist (limited_initial _ _).sublist

theorem nodup_getPending (q : OutboxQueue V) (n : ℤ) (p m : Option Priority) (c : Option String) :
    (q.getPending n p m c).Nodup := by
  have hrows : q.rows.Nodup := q.table.nodup.of_map _
  have hsorted := (List.perm_insertionSort SendsBefore (q.rows.filter (selects p m c))).nodup_iff.2
    (hrows.filter _)
  exact hsorted.sublist (limited_initial _ _).sublist

/-- A selected row that has to be sent before a row of the batch is ahead of it in the batch,
however short the limit has cut it. -/
theorem mem_ahead_getPending {q : OutboxQueue V} {n : ℤ} {p m : Option Priority} {c : Option String}
    {pre post : List (Operation V)} {a b : Operation V}
    (h : q.getPending n p m c = pre ++ b :: post) (ha : a ∈ q.rows) (hsel : selects p m c a = true)
    (hnot : ¬ SendsBefore b a) : a ∈ pre := by
  obtain ⟨rest, hrest⟩ : q.getPending n p m c <+: _ := limited_initial _ _
  have hmem : a ∈ q.getPending n p m c ++ rest := by
    rw [hrest, List.mem_insertionSort, List.mem_filter]
    exact ⟨ha, hsel⟩
  have hsorted : (q.getPending n p m c ++ rest).Pairwise SendsBefore := by
    rw [hrest]
    exact List.pairwise_insertionSort _ _
  rw [h, List.append_assoc, List.cons_append] at hmem hsorted
  rcases List.mem_append.1 hmem with hpre | hafter
  · exact hpre
  · have hself : SendsBefore b b := (Std.Total.total b b).elim id id
    have htail := (List.pairwise_cons.1 (List.pairwise_append.1 hsorted).2.1).1
    rcases List.mem_cons.1 hafter with rfl | hlater
    · exact absurd hself hnot
    · exact absurd (htail a hlater) hnot

/-- A pending row at least as urgent as a selected one is selected under the same cutoff. -/
theorem selects_of_level_le {m : Priority} {a b : Operation V}
    (hb : selects none (some m) none b = true) (ha : a.syncState = .pending)
    (hle : a.priority.level ≤ b.priority.level) : selects none (some m) none a = true := by
  simp only [selects, Option.all_none, Bool.and_true, Bool.and_eq_true, decide_eq_true_eq,
    List.mem_filter] at hb ⊢
  exact ⟨ha, Priority.mem_all _, hle.trans hb.2.2⟩

end OutboxQueue
end Dhava
