import Dhava.Spec.Persistence
import Dhava.Spec.Store

/-! The record store at the level of its columns: what `apply_operation` writes into the
`records` table, what `_row_to_record` reads there, and the record that is returned beside.
`Spec.Store` is the same store with a row taken for a record. -/

namespace Dhava

open Foundations

/-- `json_dumps` and `json_loads` for dictionaries with these values. -/
structure JsonCodec (β : Type) where
  dumps : Dict String β → String
  loads : String → Except String (Dict String β)

def JsonCodec.RoundTrips {β : Type} (c : JsonCodec β) (d : Dict String β) : Prop :=
  c.loads (c.dumps d) = .ok d

/-- The two columns with JSON texts. -/
structure RecordJson (V : Type) where
  data : JsonCodec V
  vectorClock : JsonCodec ℤ

structure RecordRow where
  collection : String
  recordId : String
  data : String
  version : ℤ
  vectorClock : String
  lastModified : ℚ
  lastModifiedBy : String
  deleted : ℤ := 0
  deletedAt : Option ℚ := none
  deriving DecidableEq

def RecordRow.key (row : RecordRow) : Key := (row.collection, row.recordId)

abbrev RecordsTable := Keyed RecordRow.key

namespace RecordsTable

/-- The `INSERT ... ON CONFLICT` of the create, update and merge functions. -/
def upsertLive (table : RecordsTable) (excluded : RecordRow) : RecordsTable :=
  table.upsert excluded (fun stored =>
    { stored with
      data := excluded.data
      version := excluded.version
      vectorClock := excluded.vectorClock
      lastModified := excluded.lastModified
      lastModifiedBy := excluded.lastModifiedBy
      deleted := 0
      deletedAt := none }) fun _ => rfl

/-- The `INSERT ... ON CONFLICT` of the delete function, which does not set `data`. -/
def upsertDeleted (table : RecordsTable) (excluded : RecordRow) : RecordsTable :=
  table.upsert excluded (fun stored =>
    { stored with
      version := excluded.version
      vectorClock := excluded.vectorClock
      lastModified := excluded.lastModified
      lastModifiedBy := excluded.lastModifiedBy
      deleted := 1
      deletedAt := excluded.deletedAt }) fun _ => rfl

section Codec

variable {V : Type} (json : RecordJson V)

/-- `_row_to_record`. -/
def rowToRecord (row : RecordRow) : Except String (Record V) := do
  let data ← json.data.loads row.data
  let vc ← json.vectorClock.loads row.vectorClock
  return {
    recordId := row.recordId
    collection := row.collection
    data
    version := row.version
    vectorClock := vc
    lastModified := row.lastModified
    lastModifiedBy := row.lastModifiedBy
    deleted := row.deleted ≠ 0
    deletedAt := row.deletedAt }

def get (table : RecordsTable) (key : Key) (includeDeleted : Bool := false) :
    Except String (Option (Record V)) :=
  match table.find? key with
  | none => .ok none
  | some row => do
    let record ← rowToRecord json row
    return if record.deleted && !includeDeleted then none else some record

/-- `_apply_create`, `_apply_update` and `_apply_merge`, which differ in the data. -/
def applyLive (table : RecordsTable) (op : Operation V)
    (dataOf : Option (Record V) → Dict String V) : Except String (RecordsTable × Record V) := do
  let existing ← table.get json op.key true
  let data := dataOf existing
  let version := LocalStore.nextVersion existing op
  let dataJson := json.data.dumps data
  let vcJson := json.vectorClock.dumps op.vectorClock
  let _ ← SqlValue.bindInteger version
  let excluded : RecordRow :=
    { collection := op.collection, recordId := op.recordId, data := dataJson, version
      vectorClock := vcJson, lastModified := op.timestamp, lastModifiedBy := op.nodeId
      deleted := 0, deletedAt := none }
  let record : Record V :=
    { recordId := op.recordId, collection := op.collection, data, version
      vectorClock := op.vectorClock, lastModified := op.timestamp, lastModifiedBy := op.nodeId
      deleted := false, deletedAt := none }
  return (table.upsertLive excluded, record)

def applyCreate (table : RecordsTable) (op : Operation V) : Except String (RecordsTable × Record V) :=
  table.applyLive json op fun _ => op.payload

def applyUpdate (table : RecordsTable) (op : Operation V) : Except String (RecordsTable × Record V) :=
  table.applyLive json op fun _ => op.payload

def applyMerge (table : RecordsTable) (op : Operation V) : Except String (RecordsTable × Record V) :=
  table.applyLive json op fun existing => (LocalStore.baseData existing).update op.payload

def applyDelete (table : RecordsTable) (op : Operation V) :
    Except String (RecordsTable × Record V) := do
  let existing ← table.get json op.key true
  let version := LocalStore.nextVersion existing op
  let data := LocalStore.baseData existing
  let dataJson := json.data.dumps data
  let vcJson := json.vectorClock.dumps op.vectorClock
  let _ ← SqlValue.bindInteger version
  let excluded : RecordRow :=
    { collection := op.collection, recordId := op.recordId, data := dataJson, version
      vectorClock := vcJson, lastModified := op.timestamp, lastModifiedBy := op.nodeId
      deleted := 1, deletedAt := some op.timestamp }
  let record : Record V :=
    { recordId := op.recordId, collection := op.collection, data, version
      vectorClock := op.vectorClock, lastModified := op.timestamp, lastModifiedBy := op.nodeId
      deleted := true, deletedAt := some op.timestamp }
  return (table.upsertDeleted excluded, record)

/-- What raises is rolled back with its transaction. -/
def applyOperation (table : RecordsTable) (op : Operation V) :
    Except String (RecordsTable × Record V) :=
  match op.opType with
  | .create => table.applyCreate json op
  | .update => table.applyUpdate json op
  | .merge => table.applyMerge json op
  | .delete => table.applyDelete json op

end Codec
end RecordsTable
end Dhava
