import Dhava.Foundations.Dict
import Mathlib.Data.Rat.Defs

/-! Data model (`models.py`). Timestamps are exact rationals. `V` is the type of the
JSON values a payload binds to its fields: no code under `src/` looks inside one. -/

namespace Dhava

open Foundations

/-- `Enum(value)`: the member with this value. -/
def ofValue {β : Type} (enum : String) (all : List β) (valueOf : β → String) (value : String) :
    Except String β :=
  match all.find? fun b => valueOf b = value with
  | some b => .ok b
  | none => .error s!"'{value}' is not a valid {enum}"

theorem ofValue_value {β : Type} (enum : String) {all : List β} {valueOf : β → String}
    (hinj : Function.Injective valueOf) {b : β} (hb : b ∈ all) :
    ofValue enum all valueOf (valueOf b) = .ok b := by
  unfold ofValue
  cases h : all.find? fun b' => valueOf b' = valueOf b with
  | none => simpa using List.find?_eq_none.1 h b hb
  | some b' =>
    obtain rfl : b' = b := hinj (by simpa using List.find?_some h)
    rfl

inductive Priority
  | p0 | p1 | p2 | p3 | p4
  deriving DecidableEq, Repr

namespace Priority

def all : List Priority := [.p0, .p1, .p2, .p3, .p4]

def value : Priority → String
  | .p0 => "P0" | .p1 => "P1" | .p2 => "P2" | .p3 => "P3" | .p4 => "P4"

def level : Priority → ℕ
  | .p0 => 0 | .p1 => 1 | .p2 => 2 | .p3 => 3 | .p4 => 4

theorem value_injective : Function.Injective value := by
  intro a b h
  cases a <;> cases b <;> first | rfl | simp [value] at h

theorem mem_all (p : Priority) : p ∈ all := by cases p <;> decide

end Priority

inductive OperationType
  | create | update | delete | merge
  deriving DecidableEq, Repr

namespace OperationType

def all : List OperationType := [.create, .update, .delete, .merge]

def value : OperationType → String
  | .create => "create" | .update => "update" | .delete => "delete" | .merge => "merge"

theorem value_injective : Function.Injective value := by
  intro a b h
  cases a <;> cases b <;> first | rfl | simp [value] at h

theorem mem_all (t : OperationType) : t ∈ all := by cases t <;> decide

end OperationType

inductive SyncState
  | pending | synced | failed | conflicted
  deriving DecidableEq, Repr

namespace SyncState

def all : List SyncState := [.pending, .synced, .failed, .conflicted]

def value : SyncState → String
  | .pending => "pending" | .synced => "synced" | .failed => "failed" | .conflicted => "conflicted"

theorem value_injective : Function.Injective value := by
  intro a b h
  cases a <;> cases b <;> first | rfl | simp [value] at h

theorem mem_all (t : SyncState) : t ∈ all := by cases t <;> decide

end SyncState

/-- `(collection, record_id)`, the primary key of the records table. -/
abbrev Key := String × String

structure Operation (V : Type) where
  opId : String
  nodeId : String
  opType : OperationType
  collection : String
  recordId : String
  payload : Dict String V
  timestamp : ℚ
  vectorClock : Dict String ℤ
  lamportTimestamp : ℤ
  priority : Priority := .p2
  userId : Option String := none
  authority : Option String := none
  sourceModule : String := "app"
  syncState : SyncState := .pending
  syncedAt : Option ℚ := none
  syncAttempts : ℤ := 0
  lastError : Option String := none
  enqueuedAt : ℚ
  deriving DecidableEq

structure Record (V : Type) where
  recordId : String
  collection : String
  data : Dict String V
  version : ℤ
  vectorClock : Dict String ℤ
  lastModified : ℚ
  lastModifiedBy : String
  deleted : Bool := false
  deletedAt : Option ℚ := none
  deriving DecidableEq

variable {V : Type}

def Operation.key (op : Operation V) : Key := (op.collection, op.recordId)

def Record.key (r : Record V) : Key := (r.collection, r.recordId)

/-- The operation as `Operation.create` made it, whatever the outbox noted on it since. -/
def Operation.asCreated (op : Operation V) : Operation V :=
  { op with syncState := .pending, syncedAt := none, syncAttempts := 0, lastError := none }

@[simp] theorem Operation.opId_asCreated (op : Operation V) : op.asCreated.opId = op.opId := rfl

theorem Operation.opId_eq_of_asCreated {a b : Operation V} (h : a.asCreated = b.asCreated) :
    a.opId = b.opId := by
  rw [← opId_asCreated a, h, opId_asCreated]

/-! ### Dictionary form

`to_dict` writes every field; `from_dict` falls back on a default where a key is absent
and raises on a missing required key or an unknown enum value. A field of `OpDict` is
`none` where the dictionary lacks the key. -/

structure OpDict (V : Type) where
  opId : Option String
  nodeId : Option String
  opType : Option String
  collection : Option String
  recordId : Option String
  payload : Option (Dict String V)
  timestamp : Option ℚ
  vectorClock : Option (Dict String ℤ)
  lamportTimestamp : Option ℤ
  priority : Option String
  userId : Option String
  authority : Option String
  sourceModule : Option String
  syncState : Option String
  syncedAt : Option ℚ
  syncAttempts : Option ℤ
  lastError : Option String
  enqueuedAt : Option ℚ
  deriving DecidableEq

def Operation.toDict (op : Operation V) : OpDict V where
  opId := some op.opId
  nodeId := some op.nodeId
  opType := some op.opType.value
  collection := some op.collection
  recordId := some op.recordId
  payload := some op.payload
  timestamp := some op.timestamp
  vectorClock := some op.vectorClock
  lamportTimestamp := some op.lamportTimestamp
  priority := some op.priority.value
  userId := op.userId
  authority := op.authority
  sourceModule := some op.sourceModule
  syncState := some op.syncState.value
  syncedAt := op.syncedAt
  syncAttempts := some op.syncAttempts
  lastError := op.lastError
  enqueuedAt := some op.enqueuedAt

/-- `data[name]`. -/
def item {β : Type} (name : String) : Option β → Except String β
  | some v => .ok v
  | none => .error s!"'{name}'"

def Operation.fromDict (data : OpDict V) : Except String (Operation V) := do
  let opId ← item "op_id" data.opId
  let nodeId ← item "node_id" data.nodeId
  let opType ← ofValue "OperationType" OperationType.all OperationType.value
    (← item "op_type" data.opType)
  let collection ← item "collection" data.collection
  let recordId ← item "record_id" data.recordId
  let timestamp ← item "timestamp" data.timestamp
  let lamportTimestamp ← item "lamport_timestamp" data.lamportTimestamp
  let priority ← ofValue "Priority" Priority.all Priority.value
    (data.priority.getD Priority.p2.value)
  let syncState ← ofValue "SyncState" SyncState.all SyncState.value
    (data.syncState.getD SyncState.pending.value)
  return {
    opId, nodeId, opType, collection, recordId, timestamp, lamportTimestamp, priority, syncState
    payload := data.payload.getD ∅
    vectorClock := data.vectorClock.getD ∅
    userId := data.userId
    authority := data.authority
    sourceModule := data.sourceModule.getD "app"
    syncedAt := data.syncedAt
    syncAttempts := data.syncAttempts.getD 0
    lastError := data.lastError
    enqueuedAt := data.enqueuedAt.getD timestamp }

theorem ok_bind {α β : Type} (a : α) (f : α → Except String β) : (Except.ok a >>= f) = f a := rfl

theorem Operation.fromDict_toDict (op : Operation V) : Operation.fromDict op.toDict = .ok op := by
  have ht := ofValue_value "OperationType" OperationType.value_injective op.opType.mem_all
  have hp := ofValue_value "Priority" Priority.value_injective op.priority.mem_all
  have hs := ofValue_value "SyncState" SyncState.value_injective op.syncState.mem_all
  simp only [fromDict, toDict, item, Option.getD_some, ok_bind, ht, hp, hs]
  rfl

/-- The operations of a list of dictionaries, as far as they decode. -/
def Operation.decoded (dicts : List (OpDict V)) : List (Operation V) :=
  dicts.filterMap fun d => (Operation.fromDict d).toOption

theorem Operation.decoded_cons {d : OpDict V} {op : Operation V} (h : Operation.fromDict d = .ok op)
    (rest : List (OpDict V)) : decoded (d :: rest) = op :: decoded rest := by
  unfold decoded
  rw [List.filterMap_cons, h]
  rfl

theorem Operation.decoded_map_toDict (ops : List (Operation V)) : decoded (ops.map toDict) = ops := by
  induction ops with
  | nil => rfl
  | cons op rest ih => rw [List.map_cons, decoded_cons (fromDict_toDict op), ih]

/-! ### Audit -/

/-- The `audit_detail` of a conflict resolution. The last six entries are missing where no
clocks were compared. -/
structure ConflictDetail where
  collection : String
  recordId : String
  remoteOpId : String
  resolution : String
  reason : String
  comparison : String
  remoteTimestamp : ℚ
  localNode : Option String
  remoteNode : Option String
  winner : Option String
  localTimestamp : Option ℚ
  tiebreaker : Option String
  deriving DecidableEq

inductive AuditDetails
  | localWrite (opId collection recordId opType priority : String)
  | conflict (detail : ConflictDetail)
  | syncPush (peerNodeId : String) (operationsSent : ℕ)
  | syncPull (peerNodeId : String) (operationsReceived : ℕ)
  deriving DecidableEq

/-- A row of the audit log, without its random id and its clock reading. -/
structure AuditEntry where
  actionType : String
  nodeId : String
  details : AuditDetails
  userId : Option String := none
  authority : Option String := none
  deriving DecidableEq

end Dhava
