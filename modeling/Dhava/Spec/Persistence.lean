import Dhava.Spec.Outbox
import Dhava.Spec.Value
import Mathlib.Order.WithBot

/-! The outbox at the level of its columns: the parameters `enqueue` binds, the row they make,
what `_row_to_operation` reads in it, and the dictionary form of an operation with its keys
as strings. `Spec.Outbox` is the same queue with a row taken for an operation. -/

namespace Dhava

open Foundations

/-- An `Operation` with the values Python has for its fields. -/
structure PyOperation where
  opId : Text
  nodeId : Text
  opType : OperationType
  collection : Text
  recordId : Text
  payload : PyValue
  timestamp : PyFloat
  vectorClock : PyValue
  lamportTimestamp : ℤ
  priority : Priority := .p2
  userId : Option Text := none
  authority : Option Text := none
  sourceModule : Text := Text.ofString "app"
  syncState : SyncState := .pending
  syncedAt : Option PyFloat := none
  syncAttempts : ℤ := 0
  lastError : Option Text := none
  enqueuedAt : PyFloat

/-! ### Columns -/

/-- A column value. `json` is a TEXT that `json_dumps` has written. -/
inductive SqlValue
  | null
  | integer (n : ℤ)
  | real (x : PyFloat)
  | text (s : Text)
  | json (document : Json)

namespace SqlValue

def isNull : SqlValue → Bool
  | .null => true
  | _ => false

/-- A string is bound as UTF-8. -/
def bindText (s : Text) : Except String SqlValue :=
  if s.isUnicode then .ok (.text s)
  else .error "'utf-8' codec can't encode characters: surrogates not allowed"

def fitsInteger (n : ℤ) : Bool := -2 ^ 63 ≤ n && n < 2 ^ 63

def bindInteger (n : ℤ) : Except String SqlValue :=
  if fitsInteger n then .ok (.integer n)
  else .error "Python int too large to convert to SQLite INTEGER"

/-- SQLite has no NaN: it stores NULL. -/
def ofFloat : PyFloat → SqlValue
  | .nan => .null
  | x => .real x

/-- `None` is bound as NULL. -/
def bindOption {β : Type} (bind : β → Except String SqlValue) : Option β → Except String SqlValue
  | some b => bind b
  | none => .ok .null

/-- The Python value of a column that holds no JSON text. -/
def value : SqlValue → PyValue
  | .null => .none
  | .integer n => .int n
  | .real x => .float x
  | .text s => .str s
  | .json _ => .other "<class 'str'>"

end SqlValue

/-- A row as `_dict_factory` returns it. -/
abbrev Row := List (String × SqlValue)

namespace Row

/-- `row[name]`. -/
def item (row : Row) (name : String) : Except String SqlValue :=
  match row.lookup name with
  | some v => .ok v
  | none => .error s!"'{name}'"

/-- `row.get(name, default)`. -/
def get (row : Row) (name : String) (default : SqlValue := .null) : SqlValue :=
  (row.lookup name).getD default

/-- The text of a column, as a comparison in a `WHERE` clause sees it. -/
def text (row : Row) (name : String) : Option Text :=
  match row.lookup name with
  | some (.text s) => some s
  | _ => none

def opId (row : Row) : Text := (row.text "op_id").getD []

end Row

/-- The columns the `INSERT` names, in its order. -/
def insertColumns : List String :=
  ["op_id", "node_id", "op_type", "collection", "record_id", "payload",
    "timestamp", "vector_clock", "lamport_timestamp", "priority",
    "user_id", "authority", "source_module", "sync_state",
    "synced_at", "sync_attempts", "last_error", "enqueued_at"]

def notNullColumns : List String :=
  ["node_id", "op_type", "collection", "record_id", "payload", "timestamp", "vector_clock",
    "lamport_timestamp", "priority", "enqueued_at"]

/-! ### Conversions -/

section Conversions

variable (floatRepr : PyFloat → String)

/-- `str(value)`. The text of a container is not needed. -/
def pyStr : PyValue → Except String Text
  | .str s => .ok s
  | .none => .ok (Text.ofString "None")
  | .bool b => .ok (Text.ofString (if b then "True" else "False"))
  | .int n => .ok (Text.ofString (toString n))
  | .float x => .ok (Text.ofString (floatRepr x))
  | _ => .error "no text"

/-- `float(value)`. No caller hands it a string. -/
def pyFloat : PyValue → Except String PyFloat
  | .float x => .ok x
  | .int n => .ok (.finite n)
  | .bool b => .ok (.finite (if b then 1 else 0))
  | .str _ => .error "could not convert string to float"
  | _ => .error "float() argument must be a string or a real number"

/-- `int(value)`, which truncates. -/
def pyInt : PyValue → Except String ℤ
  | .int n => .ok n
  | .bool b => .ok (if b then 1 else 0)
  | .float (.finite q) => .ok (q.num.tdiv q.den)
  | .float (.inf _) => .error "cannot convert float infinity to integer"
  | .float .nan => .error "cannot convert float NaN to integer"
  | .str _ => .error "invalid literal for int() with base 10"
  | _ => .error "int() argument must be a string, a bytes-like object or a real number"

/-- `Enum(value)`. -/
def pyEnum {β : Type} (enum : String) (all : List β) (valueOf : β → String) :
    PyValue → Except String β
  | .str s =>
    match all.find? fun b => Text.ofString (valueOf b) = s with
    | some b => .ok b
    | none => .error s!"not a valid {enum}"
  | _ => .error s!"not a valid {enum}"

/-- `f(value) if value is not None else None`. -/
def pyOptional {β : Type} (f : PyValue → Except String β) : PyValue → Except String (Option β)
  | .none => .ok none
  | v => do return some (← f v)

/-- `dict(value)`. -/
def pyDict : PyValue → Except String PyValue
  | .dict entries => .ok (.dict entries)
  | _ => .error "object is not iterable"

/-! ### `outbox.py` -/

/-- `json_loads(row[name]) if isinstance(row[name], str) else row[name]`. -/
def loadColumn : SqlValue → Except String PyValue
  | .json document => .ok (jsonLoads document)
  | .text _ => .error "Expecting value: line 1 column 1 (char 0)"
  | v => .ok v.value

/-- `_row_to_operation`. -/
def rowToOperation (row : Row) : Except String PyOperation := do
  let payload ← loadColumn (← row.item "payload")
  let vc ← loadColumn (← row.item "vector_clock")
  return {
    opId := ← pyStr floatRepr (← row.item "op_id").value
    nodeId := ← pyStr floatRepr (← row.item "node_id").value
    opType := ← pyEnum "OperationType" OperationType.all OperationType.value
      (← row.item "op_type").value
    collection := ← pyStr floatRepr (← row.item "collection").value
    recordId := ← pyStr floatRepr (← row.item "record_id").value
    payload
    timestamp := ← pyFloat (← row.item "timestamp").value
    vectorClock := vc
    lamportTimestamp := ← pyInt (← row.item "lamport_timestamp").value
    priority := ← pyEnum "Priority" Priority.all Priority.value (← row.item "priority").value
    userId := ← pyOptional (pyStr floatRepr) (row.get "user_id").value
    authority := ← pyOptional (pyStr floatRepr) (row.get "authority").value
    sourceModule := ← pyStr floatRepr (row.get "source_module" (.text (Text.ofString "app"))).value
    syncState := ← pyEnum "SyncState" SyncState.all SyncState.value
      (row.get "sync_state" (.text (Text.ofString "pending"))).value
    syncedAt := ← pyOptional pyFloat (row.get "synced_at").value
    syncAttempts := ← pyInt (row.get "sync_attempts" (.integer 0)).value
    lastError := ← pyOptional (pyStr floatRepr) (row.get "last_error").value
    enqueuedAt := ← pyFloat (row.get "enqueued_at" (← row.item "timestamp")).value }

/-- The parameters of the `INSERT`, in the order of its question marks. -/
def insertParams (op : PyOperation) (payloadJson vcJson : Json) : List (Except String SqlValue) :=
  [SqlValue.bindText op.opId,
    SqlValue.bindText op.nodeId,
    SqlValue.bindText (Text.ofString op.opType.value),
    SqlValue.bindText op.collection,
    SqlValue.bindText op.recordId,
    .ok (.json payloadJson),
    .ok (SqlValue.ofFloat op.timestamp),
    .ok (.json vcJson),
    SqlValue.bindInteger op.lamportTimestamp,
    SqlValue.bindText (Text.ofString op.priority.value),
    SqlValue.bindOption SqlValue.bindText op.userId,
    SqlValue.bindOption SqlValue.bindText op.authority,
    SqlValue.bindText op.sourceModule,
    SqlValue.bindText (Text.ofString op.syncState.value),
    SqlValue.bindOption (fun x => .ok (SqlValue.ofFloat x)) op.syncedAt,
    SqlValue.bindInteger op.syncAttempts,
    SqlValue.bindOption SqlValue.bindText op.lastError,
    .ok (SqlValue.ofFloat op.enqueuedAt)]

/-- The `outbox` table. -/
abbrev OutboxTable := Keyed Row.opId

namespace OutboxTable

def enqueue (table : OutboxTable) (op : PyOperation) : Except String OutboxTable := do
  let payloadJson ← jsonDumps floatRepr op.payload
  let vcJson ← jsonDumps floatRepr op.vectorClock
  let params ← (insertParams op payloadJson vcJson).mapM id
  let row : Row := insertColumns.zip params
  match notNullColumns.find? fun name => (row.get name).isNull with
  | some name => .error s!"NOT NULL constraint failed: outbox.{name}"
  | none =>
    match table.insert? row with
    | some table => .ok table
    | none => .error "UNIQUE constraint failed: outbox.op_id"

/-- The operations one after the other, up to the first that is refused. -/
def enqueueAll (table : OutboxTable) (ops : List PyOperation) : Except String OutboxTable :=
  ops.foldlM (enqueue floatRepr) table

/-- The `CASE` of the `ORDER BY`. -/
def level (row : Row) : ℕ :=
  (([("P0", 0), ("P1", 1), ("P2", 2), ("P3", 3), ("P4", 4)].find? fun w =>
    row.text "priority" = some (Text.ofString w.1)).map Prod.snd).getD 5

/-- Where a timestamp stands among the others. -/
def instant (row : Row) : WithBot (WithTop ℚ) :=
  match row.lookup "timestamp" with
  | some (.real (.finite q)) => ((q : WithTop ℚ) : WithBot (WithTop ℚ))
  | some (.real (.inf false)) => ((⊤ : WithTop ℚ) : WithBot (WithTop ℚ))
  | _ => ⊥

/-- The `ORDER BY` of `get_pending`. -/
def SendsBefore (a b : Row) : Prop :=
  level a < level b ∨ (level a = level b ∧ instant a ≤ instant b)

instance : DecidableRel SendsBefore := fun _ _ => inferInstanceAs (Decidable (_ ∨ (_ ∧ _)))

/-- The `WHERE` clause of `get_pending`. -/
def selects (priority maxPriority : Option Priority) (collection : Option Text) (row : Row) : Bool :=
  row.text "sync_state" = some (Text.ofString "pending") &&
    (match priority, maxPriority with
      | some p, _ => row.text "priority" = some (Text.ofString p.value)
      | none, some m => row.text "priority" ∈
        (Priority.all.filter fun p => p.level ≤ m.level).map fun p => some (Text.ofString p.value)
      | none, none => true) &&
    collection.all fun c => row.text "collection" = some c

def getPending (table : OutboxTable) (limit : ℤ) (priority maxPriority : Option Priority)
    (collection : Option Text) : Except String (List PyOperation) :=
  (OutboxQueue.limited limit ((table.rows.filter
    (selects priority maxPriority collection)).insertionSort SendsBefore)).mapM
      (rowToOperation floatRepr)

end OutboxTable
end Conversions

/-! ### Dictionary form -/

/-- A dictionary with these keys. -/
def PyValue.ofFields (fields : List (String × PyValue)) : PyValue :=
  .dict (fields.map fun f => (.str (Text.ofString f.1), f.2))

/-- `None` for an absent value. -/
def PyValue.ofOption {β : Type} (f : β → PyValue) : Option β → PyValue
  | .some b => f b
  | .none => .none

namespace PyOperation

def toDict (op : PyOperation) : PyValue :=
  PyValue.ofFields
    [("op_id", .str op.opId),
      ("node_id", .str op.nodeId),
      ("op_type", .str (Text.ofString op.opType.value)),
      ("collection", .str op.collection),
      ("record_id", .str op.recordId),
      ("payload", op.payload),
      ("timestamp", .float op.timestamp),
      ("vector_clock", op.vectorClock),
      ("lamport_timestamp", .int op.lamportTimestamp),
      ("priority", .str (Text.ofString op.priority.value)),
      ("user_id", .ofOption .str op.userId),
      ("authority", .ofOption .str op.authority),
      ("source_module", .str op.sourceModule),
      ("sync_state", .str (Text.ofString op.syncState.value)),
      ("synced_at", .ofOption .float op.syncedAt),
      ("sync_attempts", .int op.syncAttempts),
      ("last_error", .ofOption .str op.lastError),
      ("enqueued_at", .float op.enqueuedAt)]

/-- The value as it is, in a field for strings. Python would keep any other value there. -/
def asText : PyValue → Except String Text
  | .str s => .ok s
  | _ => .error "not a string"

def fromDict (data : PyValue) : Except String PyOperation := do
  let entries ← match data with
    | .dict entries => Except.ok entries
    | _ => .error "indices must be integers or slices, not str"
  let find (name : String) : Option PyValue := entries.lookup (.str (Text.ofString name))
  let get (name : String) (default : PyValue) : PyValue := (find name).getD default
  return {
    opId := ← asText (← item "op_id" (find "op_id"))
    nodeId := ← asText (← item "node_id" (find "node_id"))
    opType := ← pyEnum "OperationType" OperationType.all OperationType.value
      (← item "op_type" (find "op_type"))
    collection := ← asText (← item "collection" (find "collection"))
    recordId := ← asText (← item "record_id" (find "record_id"))
    payload := get "payload" (.dict [])
    timestamp := ← pyFloat (← item "timestamp" (find "timestamp"))
    vectorClock := ← pyDict (get "vector_clock" (.dict []))
    lamportTimestamp := ← pyInt (← item "lamport_timestamp" (find "lamport_timestamp"))
    priority := ← pyEnum "Priority" Priority.all Priority.value
      (get "priority" (.str (Text.ofString Priority.p2.value)))
    userId := ← pyOptional asText (get "user_id" .none)
    authority := ← pyOptional asText (get "authority" .none)
    sourceModule := ← asText (get "source_module" (.str (Text.ofString "app")))
    syncState := ← pyEnum "SyncState" SyncState.all SyncState.value
      (get "sync_state" (.str (Text.ofString SyncState.pending.value)))
    syncedAt := ← pyOptional pyFloat (get "synced_at" .none)
    syncAttempts := ← pyInt (get "sync_attempts" (.int 0))
    lastError := ← pyOptional asText (get "last_error" .none)
    enqueuedAt := ← pyFloat (get "enqueued_at" (← item "timestamp" (find "timestamp"))) }

end PyOperation
end Dhava
