import Dhava.Foundations.Keyed
import Dhava.Spec.Platform
import Dhava.Spec.VectorClock
import Mathlib.Algebra.Order.Ring.Rat
import Mathlib.Data.List.Sort
import Mathlib.Data.String.Basic
import Mathlib.Order.WithBot

/-! The record store (`store.py`) over the `records` table of `backends/sqlite.py`.
`written` is what one operation makes of one row; the four apply functions compute it. -/

namespace Dhava

open Foundations

structure LocalStore (V : Type) where
  records : Keyed (Record.key (V := V))
  ties : TieOrder := liveFirst

namespace LocalStore

variable {V : Type}

def empty (ties : TieOrder := liveFirst) : LocalStore V := { records := Keyed.empty, ties }

def get (s : LocalStore V) (key : Key) (includeDeleted : Bool := false) : Option (Record V) :=
  match s.records.find? key with
  | none => none
  | some record => if record.deleted && !includeDeleted then none else some record

/-- `_matches_filters`. -/
def matchesFilters [DecidableEq V] (filters data : Dict String V) : Bool :=
  decide (∀ k ∈ filters.keys, data.lookup k = filters.lookup k)

/-- `ORDER BY last_modified DESC`. -/
def byLastModified (ties : TieOrder) (rows : List (Record V)) : List (Record V) :=
  let scanned := rows.insertionSort fun a b => ties (a.key, a.deleted) (b.key, b.deleted)
  scanned.insertionSort fun a b => b.lastModified ≤ a.lastModified

/-- `keep` is the in-memory filter, `matchesFilters` of a filter dictionary. -/
def query (s : LocalStore V) (collection : String) (keep : Dict String V → Bool := fun _ => true)
    (limit : ℕ := 100) (offset : ℕ := 0) (includeDeleted : Bool := false) : List (Record V) :=
  let rows := s.records.rows.filter fun r => r.collection = collection
  let rows := if includeDeleted then rows else rows.filter fun r => !r.deleted
  let records := (byLastModified s.ties rows).filter fun r => keep r.data
  (records.drop offset).take limit

/-- With filters the rows of a query are counted, a million at most. -/
def count [DecidableEq V] (s : LocalStore V) (collection : String) (filters : Dict String V)
    (includeDeleted : Bool := false) : ℕ :=
  if filters.keys = ∅ then
    let rows := s.records.rows.filter fun r => r.collection = collection
    (if includeDeleted then rows else rows.filter fun r => !r.deleted).length
  else (s.query collection (matchesFilters filters) 1000000 0 includeDeleted).length

/-- `SELECT DISTINCT collection ... WHERE deleted = 0 ORDER BY collection ASC`. -/
def getAllCollections (s : LocalStore V) : List String :=
  ((s.records.rows.filter fun r => !r.deleted).map Record.collection).dedup.insertionSort (· ≤ ·)

def getVectorClock (s : LocalStore V) (key : Key) : VectorClock :=
  match s.get key true with
  | none => VectorClock.ofDict ∅
  | some rec => VectorClock.ofDict rec.vectorClock

def nextVersion (existing : Option (Record V)) (op : Operation V) : ℤ :=
  match existing with
  | some r => r.version + 1
  | none => max 1 op.lamportTimestamp

/-- The statement the create, update and merge functions share: insert a live row, or
overwrite every column but the key. -/
def upsertLive (s : LocalStore V) (op : Operation V)
    (dataOf : Option (Record V) → Dict String V) : LocalStore V × Record V :=
  let existing := s.get op.key true
  let record : Record V :=
    { recordId := op.recordId, collection := op.collection, data := dataOf existing
      version := nextVersion existing op, vectorClock := op.vectorClock
      lastModified := op.timestamp, lastModifiedBy := op.nodeId
      deleted := false, deletedAt := none }
  let set (stored : Record V) : Record V :=
    { record with recordId := stored.recordId, collection := stored.collection }
  ({ s with records := s.records.upsert record set fun _ => rfl }, record)

def applyCreate (s : LocalStore V) (op : Operation V) : LocalStore V × Record V :=
  s.upsertLive op fun _ => op.payload

def applyUpdate (s : LocalStore V) (op : Operation V) : LocalStore V × Record V :=
  s.upsertLive op fun _ => op.payload

/-- The data an operation finds: a missing row counts as no fields, a tombstone keeps its own. -/
def baseData (existing : Option (Record V)) : Dict String V := existing.elim ∅ Record.data

def applyMerge (s : LocalStore V) (op : Operation V) : LocalStore V × Record V :=
  s.upsertLive op fun existing => (baseData existing).update op.payload

def applyDelete (s : LocalStore V) (op : Operation V) : LocalStore V × Record V :=
  let existing := s.get op.key true
  let record : Record V :=
    { recordId := op.recordId, collection := op.collection, data := baseData existing
      version := nextVersion existing op, vectorClock := op.vectorClock
      lastModified := op.timestamp, lastModifiedBy := op.nodeId
      deleted := true, deletedAt := some op.timestamp }
  -- the conflict clause leaves the data column alone
  let set (stored : Record V) : Record V :=
    { record with recordId := stored.recordId, collection := stored.collection, data := stored.data }
  ({ s with records := s.records.upsert record set fun _ => rfl }, record)

def applyOperation (s : LocalStore V) (op : Operation V) : LocalStore V × Record V :=
  match op.opType with
  | .create => s.applyCreate op
  | .update => s.applyUpdate op
  | .merge => s.applyMerge op
  | .delete => s.applyDelete op

/-! ### One row at a time -/

def writtenData (existing : Option (Record V)) (op : Operation V) : Dict String V :=
  match op.opType with
  | .create | .update => op.payload
  | .merge => (baseData existing).update op.payload
  | .delete => baseData existing

/-- The row an applied operation leaves under its key. -/
def written (existing : Option (Record V)) (op : Operation V) : Record V where
  recordId := op.recordId
  collection := op.collection
  data := writtenData existing op
  version := nextVersion existing op
  vectorClock := op.vectorClock
  lastModified := op.timestamp
  lastModifiedBy := op.nodeId
  deleted := op.opType = .delete
  deletedAt := if op.opType = .delete then some op.timestamp else none

@[simp] theorem key_written (existing : Option (Record V)) (op : Operation V) :
    (written existing op).key = op.key := rfl

@[simp] theorem vectorClock_written (existing : Option (Record V)) (op : Operation V) :
    (written existing op).vectorClock = op.vectorClock := rfl

@[simp] theorem lastModified_written (existing : Option (Record V)) (op : Operation V) :
    (written existing op).lastModified = op.timestamp := rfl

@[simp] theorem lastModifiedBy_written (existing : Option (Record V)) (op : Operation V) :
    (written existing op).lastModifiedBy = op.nodeId := rfl

@[simp] theorem deleted_written (existing : Option (Record V)) (op : Operation V) :
    (written existing op).deleted = decide (op.opType = .delete) := rfl

@[simp] theorem data_written (existing : Option (Record V)) (op : Operation V) :
    (written existing op).data = writtenData existing op := rfl

@[simp] theorem get_true (s : LocalStore V) (key : Key) : s.get key true = s.records.find? key := by
  unfold get
  cases s.records.find? key with
  | none => rfl
  | some r => simp

theorem get_false (s : LocalStore V) (key : Key) :
    s.get key = (s.get key true).filter fun r => !r.deleted := by
  rw [get_true]
  unfold get
  cases s.records.find? key with
  | none => rfl
  | some r => cases h : r.deleted <;> simp [Option.filter, h]

theorem get_eq_some_iff (s : LocalStore V) (key : Key) (r : Record V) :
    s.get key = some r ↔ s.get key true = some r ∧ r.deleted = false := by
  rw [get_false, Option.filter_eq_some_iff, Bool.not_eq_true']

@[simp] theorem get_empty (ties : TieOrder) (key : Key) (b : Bool) :
    (empty ties : LocalStore V).get key b = none := rfl

private theorem find?_upsertLive (s : LocalStore V) (op : Operation V)
    (dataOf : Option (Record V) → Dict String V) (key : Key) :
    (s.upsertLive op dataOf).1.records.find? key =
      if key = op.key then some (s.upsertLive op dataOf).2 else s.records.find? key := by
  refine Keyed.find?_upsert_eq _ rfl (fun r hr _ => ?_) key
  obtain ⟨h1, h2⟩ := Prod.mk.inj hr
  simp only [h1, h2]

private theorem find?_applyDelete (s : LocalStore V) (op : Operation V) (key : Key) :
    (s.applyDelete op).1.records.find? key =
      if key = op.key then some (s.applyDelete op).2 else s.records.find? key := by
  refine Keyed.find?_upsert_eq _ rfl (fun r hr hf => ?_) key
  obtain ⟨h1, h2⟩ := Prod.mk.inj hr
  have hdata : baseData (s.get op.key true) = r.data := by
    rw [get_true]
    exact congrArg baseData hf
  simp only [h1, h2, hdata]

/-- An applied operation returns the row it wrote, and leaves the other rows alone. -/
theorem applyOperation_eq (s : LocalStore V) (op : Operation V) :
    (s.applyOperation op).2 = written (s.get op.key true) op ∧
      ∀ key, (s.applyOperation op).1.get key true =
        if key = op.key then some (written (s.get op.key true) op) else s.get key true := by
  simp only [get_true s, get_true (s.applyOperation op).1]
  unfold applyOperation
  cases ht : op.opType with
  | create =>
    have h : (s.applyCreate op).2 = written (s.records.find? op.key) op := by
      simp [applyCreate, upsertLive, written, writtenData, ht]
    exact ⟨h, fun key => h ▸ find?_upsertLive s op _ key⟩
  | update =>
    have h : (s.applyUpdate op).2 = written (s.records.find? op.key) op := by
      simp [applyUpdate, upsertLive, written, writtenData, ht]
    exact ⟨h, fun key => h ▸ find?_upsertLive s op _ key⟩
  | merge =>
    have h : (s.applyMerge op).2 = written (s.records.find? op.key) op := by
      simp [applyMerge, upsertLive, written, writtenData, ht]
    exact ⟨h, fun key => h ▸ find?_upsertLive s op _ key⟩
  | delete =>
    have h : (s.applyDelete op).2 = written (s.records.find? op.key) op := by
      simp [applyDelete, written, writtenData, ht]
    exact ⟨h, fun key => h ▸ find?_applyDelete s op key⟩

theorem get_applyOperation (s : LocalStore V) (op : Operation V) (key : Key) :
    (s.applyOperation op).1.get key true =
      if key = op.key then some (written (s.get op.key true) op) else s.get key true :=
  (applyOperation_eq s op).2 key

/-! ### The order of a query -/

theorem perm_byLastModified (ties : TieOrder) (rows : List (Record V)) :
    (byLastModified ties rows).Perm rows :=
  (List.perm_insertionSort _ _).trans (List.perm_insertionSort _ _)

/-! ### Versions -/

/-- The version under each key, below all versions where there is no row. -/
def versions (s : LocalStore V) (key : Key) : WithBot ℤ :=
  (s.get key true).elim ⊥ fun r => (r.version : WithBot ℤ)

/-- An applied operation raises the version under its key, and keeps the others. -/
theorem versions_lt_applyOperation (s : LocalStore V) (op : Operation V) :
    s.versions < (s.applyOperation op).1.versions := by
  have hkey : s.versions op.key < (s.applyOperation op).1.versions op.key := by
    unfold versions
    rw [get_applyOperation, if_pos rfl]
    cases s.get op.key true with
    | none => exact WithBot.bot_lt_coe _
    | some r => exact WithBot.coe_lt_coe.2 (by change r.version < r.version + 1; omega)
  refine Pi.lt_def.2 ⟨fun key => ?_, op.key, hkey⟩
  by_cases hk : key = op.key
  · rw [hk]
    exact hkey.le
  · unfold versions
    rw [get_applyOperation, if_neg hk]

theorem applyOperation_ne (s : LocalStore V) (op : Operation V) : (s.applyOperation op).1 ≠ s :=
  fun h => (s.versions_lt_applyOperation op).ne (congrArg versions h).symm

/-- Every row of a store is found under its own key. -/
theorem mem_rows_iff (s : LocalStore V) (r : Record V) :
    r ∈ s.records.rows ↔ s.get r.key true = some r := by
  rw [get_true, Keyed.find?_eq_some]
  exact ⟨fun h => ⟨h, rfl⟩, fun h => h.1⟩

end LocalStore
end Dhava
