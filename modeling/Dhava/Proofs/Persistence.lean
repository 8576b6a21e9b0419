import Dhava.Foundations.Attempt
import Dhava.Proofs.Encoding
import Dhava.Spec.Persistence

/-! The rows of the outbox: which operations `enqueue` takes, the row it writes, and what
`_row_to_operation` reads in it. -/

namespace Dhava

open Foundations

variable (floatRepr : PyFloat → String)

/-- The text `json_dumps` writes for a value it accepts. -/
def PyValue.document (v : PyValue) : Json :=
  match jsonDumps floatRepr v with
  | .ok document => document
  | .error _ => .null

theorem PyValue.document_of_ok {v : PyValue} {document : Json}
    (h : jsonDumps floatRepr v = .ok document) : v.document floatRepr = document := by
  rw [PyValue.document, h]

namespace PyOperation

/-- SQLite takes the parameters: its strings are UTF-8, its integers have 64 bits. -/
structure Bindable (op : PyOperation) : Prop where
  opId : op.opId.isUnicode = true
  nodeId : op.nodeId.isUnicode = true
  collection : op.collection.isUnicode = true
  recordId : op.recordId.isUnicode = true
  sourceModule : op.sourceModule.isUnicode = true
  userId : ∀ s, op.userId = some s → s.isUnicode = true
  authority : ∀ s, op.authority = some s → s.isUnicode = true
  lastError : ∀ s, op.lastError = some s → s.isUnicode = true
  lamportTimestamp : SqlValue.fitsInteger op.lamportTimestamp = true
  syncAttempts : SqlValue.fitsInteger op.syncAttempts = true

/-- What `enqueue` takes, as long as the id is free. -/
structure Accepted (op : PyOperation) : Prop where
  payload : ∃ document, jsonDumps floatRepr op.payload = .ok document
  vectorClock : ∃ document, jsonDumps floatRepr op.vectorClock = .ok document
  bindable : op.Bindable
  timestamp : op.timestamp ≠ .nan
  enqueuedAt : op.enqueuedAt ≠ .nan

def textColumn : Option Text → SqlValue
  | some s => .text s
  | none => .null

def floatColumn : Option PyFloat → SqlValue
  | some x => .ofFloat x
  | none => .null

/-- The values of the row, in the order of the columns. -/
def columns (op : PyOperation) (payloadJson vcJson : Json) : List SqlValue :=
  [.text op.opId, .text op.nodeId, .text (Text.ofString op.opType.value), .text op.collection,
    .text op.recordId, .json payloadJson, .ofFloat op.timestamp, .json vcJson,
    .integer op.lamportTimestamp, .text (Text.ofString op.priority.value), textColumn op.userId,
    textColumn op.authority, .text op.sourceModule, .text (Text.ofString op.syncState.value),
    floatColumn op.syncedAt, .integer op.syncAttempts, textColumn op.lastError,
    .ofFloat op.enqueuedAt]

def row (op : PyOperation) : Row :=
  insertColumns.zip
    (op.columns (op.payload.document floatRepr) (op.vectorClock.document floatRepr))

/-- The operation as it is read from its row. -/
def readBack (op : PyOperation) : PyOperation :=
  { op with
    payload := jsonLoads (op.payload.document floatRepr)
    vectorClock := jsonLoads (op.vectorClock.document floatRepr)
    syncedAt := op.syncedAt.filter (· ≠ .nan) }

end PyOperation

/-! ### Binding -/

theorem SqlValue.bindText_ok {s : Text} (h : s.isUnicode = true) : bindText s = .ok (.text s) :=
  if_pos h

theorem SqlValue.isUnicode_of_bindText {s : Text} {v : SqlValue} (h : bindText s = .ok v) :
    s.isUnicode = true := by
  unfold bindText at h
  split_ifs at h with hs
  exact hs

theorem SqlValue.fits_of_bindInteger {n : ℤ} {v : SqlValue} (h : bindInteger n = .ok v) :
    fitsInteger n = true := by
  unfold bindInteger at h
  split_ifs at h with hn
  exact hn

theorem SqlValue.bindOption_text {s : Option Text} (h : ∀ t, s = some t → t.isUnicode = true) :
    bindOption bindText s = .ok (PyOperation.textColumn s) := by
  cases s with
  | none => rfl
  | some t => exact bindText_ok (h t rfl)

theorem SqlValue.bindOption_float (x : Option PyFloat) :
    bindOption (fun x => .ok (ofFloat x)) x = .ok (PyOperation.floatColumn x) := by
  cases x <;> rfl

theorem insertParams_of_bindable {op : PyOperation} (h : op.Bindable) (payloadJson vcJson : Json) :
    insertParams op payloadJson vcJson = (op.columns payloadJson vcJson).map Except.ok := by
  have henum : ∀ s : String, SqlValue.bindText (Text.ofString s) = .ok (.text (Text.ofString s)) :=
    fun s => SqlValue.bindText_ok (Text.isUnicode_ofString s)
  have hint : ∀ n, SqlValue.fitsInteger n = true → SqlValue.bindInteger n = .ok (.integer n) :=
    fun n hn => if_pos hn
  rw [insertParams, henum, henum, henum, hint _ h.lamportTimestamp, hint _ h.syncAttempts,
    SqlValue.bindText_ok h.opId, SqlValue.bindText_ok h.nodeId, SqlValue.bindText_ok h.collection,
    SqlValue.bindText_ok h.recordId, SqlValue.bindText_ok h.sourceModule,
    SqlValue.bindOption_text h.userId, SqlValue.bindOption_text h.authority,
    SqlValue.bindOption_text h.lastError, SqlValue.bindOption_float]
  rfl

theorem bindable_of_insertParams {op : PyOperation} {payloadJson vcJson : Json}
    (h : ∀ x ∈ insertParams op payloadJson vcJson, ∃ v, x = .ok v) : op.Bindable := by
  have htext : ∀ s, SqlValue.bindText s ∈ insertParams op payloadJson vcJson → s.isUnicode = true :=
    fun s hs => by
      obtain ⟨v, hv⟩ := h _ hs
      exact SqlValue.isUnicode_of_bindText hv
  have hoption : ∀ s : Option Text,
      SqlValue.bindOption SqlValue.bindText s ∈ insertParams op payloadJson vcJson →
        ∀ t, s = some t → t.isUnicode = true := fun s hs t ht => by
    obtain ⟨v, hv⟩ := h _ hs
    rw [ht] at hv
    exact SqlValue.isUnicode_of_bindText hv
  have hint : ∀ n, SqlValue.bindInteger n ∈ insertParams op payloadJson vcJson →
      SqlValue.fitsInteger n = true := fun n hn => by
    obtain ⟨v, hv⟩ := h _ hn
    exact SqlValue.fits_of_bindInteger hv
  constructor
  case userId => exact hoption _ (by simp [insertParams])
  case authority => exact hoption _ (by simp [insertParams])
  case lastError => exact hoption _ (by simp [insertParams])
  case lamportTimestamp => exact hint _ (by simp [insertParams])
  case syncAttempts => exact hint _ (by simp [insertParams])
  all_goals exact htext _ (by simp [insertParams])

/-! ### The row -/

@[simp] theorem SqlValue.isNull_text (s : Text) : (SqlValue.text s).isNull = false := rfl

@[simp] theorem SqlValue.isNull_json (document : Json) : (SqlValue.json document).isNull = false := rfl

@[simp] theorem SqlValue.isNull_integer (n : ℤ) : (SqlValue.integer n).isNull = false := rfl

@[simp] theorem SqlValue.isNull_ofFloat (x : PyFloat) : (ofFloat x).isNull = decide (x = .nan) := by
  cases x <;> rfl

theorem notNull_columns (op : PyOperation) (payloadJson vcJson : Json) :
    (notNullColumns.find? fun name =>
        (Row.get (insertColumns.zip (op.columns payloadJson vcJson)) name).isNull) = none ↔
      op.timestamp ≠ .nan ∧ op.enqueuedAt ≠ .nan := by
  rw [List.find?_eq_none]
  simp [notNullColumns, insertColumns, PyOperation.columns, Row.get, List.lookup_cons]

variable {floatRepr}

/-- `enqueue` goes through exactly for an operation it accepts whose id is free, and adds its row. -/
theorem OutboxTable.enqueue_eq_ok {table table' : OutboxTable} {op : PyOperation} :
    OutboxTable.enqueue floatRepr table op = .ok table' ↔
      op.Accepted floatRepr ∧ table.insert? (op.row floatRepr) = some table' := by
  unfold OutboxTable.enqueue
  simp only [bind_eq_ok]
  constructor
  · rintro ⟨payloadJson, hp, vcJson, hv, params, hparams, h⟩
    have hlist := mapM_id_eq_ok.1 hparams
    have hbind : op.Bindable := bindable_of_insertParams fun x hx => by
      rw [hlist] at hx
      obtain ⟨v, -, rfl⟩ := List.mem_map.1 hx
      exact ⟨v, rfl⟩
    rw [insertParams_of_bindable hbind] at hlist
    obtain rfl := List.map_injective_iff.2 (fun a b hab => Except.ok.inj hab) hlist
    have hrow : insertColumns.zip (op.columns payloadJson vcJson) = op.row floatRepr := by
      rw [PyOperation.row, PyValue.document_of_ok floatRepr hp, PyValue.document_of_ok floatRepr hv]
    split at h
    · cases h
    · rename_i hnull
      obtain ⟨htime, henq⟩ := (notNull_columns op payloadJson vcJson).1 hnull
      refine ⟨⟨⟨_, hp⟩, ⟨_, hv⟩, hbind, htime, henq⟩, ?_⟩
      rw [hrow] at h
      split at h
      · rename_i hins
        obtain rfl := Except.ok.inj h
        exact hins
      · cases h
  · rintro ⟨hacc, hins⟩
    obtain ⟨payloadJson, hp⟩ := hacc.payload
    obtain ⟨vcJson, hv⟩ := hacc.vectorClock
    refine ⟨payloadJson, hp, vcJson, hv, op.columns payloadJson vcJson,
      mapM_id_eq_ok.2 (insertParams_of_bindable hacc.bindable _ _), ?_⟩
    have hrow : insertColumns.zip (op.columns payloadJson vcJson) = op.row floatRepr := by
      rw [PyOperation.row, PyValue.document_of_ok floatRepr hp, PyValue.document_of_ok floatRepr hv]
    simp only [(notNull_columns op payloadJson vcJson).2 ⟨hacc.timestamp, hacc.enqueuedAt⟩]
    rw [hrow, hins]

/-! ### Reading a row -/

theorem pyEnum_value {β : Type} (enum : String) {all : List β} {valueOf : β → String}
    (hinj : Function.Injective valueOf) {b : β} (hb : b ∈ all) :
    pyEnum enum all valueOf (.str (Text.ofString (valueOf b))) = .ok b := by
  simp only [pyEnum]
  cases h : all.find? fun b' => Text.ofString (valueOf b') = Text.ofString (valueOf b) with
  | none => simpa using List.find?_eq_none.1 h b hb
  | some b' =>
    obtain rfl : b' = b := hinj (Text.ofString_injective (by simpa using List.find?_some h))
    rfl

theorem pyOptional_text (s : Option Text) :
    pyOptional (pyStr floatRepr) (PyOperation.textColumn s).value = .ok s := by
  cases s <;> rfl

theorem pyFloat_ofFloat {x : PyFloat} (h : x ≠ .nan) : pyFloat (SqlValue.ofFloat x).value = .ok x := by
  cases x with
  | nan => exact absurd rfl h
  | _ => rfl

theorem pyOptional_float (x : Option PyFloat) :
    pyOptional pyFloat (PyOperation.floatColumn x).value = .ok (x.filter (· ≠ .nan)) := by
  cases x with
  | none => rfl
  | some x => cases x <;> rfl

theorem pyStr_text (s : Text) : pyStr floatRepr (SqlValue.text s).value = .ok s := rfl

theorem pyInt_integer (n : ℤ) : pyInt (SqlValue.integer n).value = .ok n := rfl

theorem loadColumn_json (document : Json) :
    loadColumn (.json document) = .ok (jsonLoads document) := rfl

/-- `_row_to_operation` on the row of an accepted operation. -/
theorem rowToOperation_row {op : PyOperation} (h : op.Accepted floatRepr) :
    rowToOperation floatRepr (op.row floatRepr) = .ok (op.readBack floatRepr) := by
  have htype : pyEnum "OperationType" OperationType.all OperationType.value
      (SqlValue.text (Text.ofString op.opType.value)).value = .ok op.opType :=
    pyEnum_value _ OperationType.value_injective op.opType.mem_all
  have hpriority : pyEnum "Priority" Priority.all Priority.value
      (SqlValue.text (Text.ofString op.priority.value)).value = .ok op.priority :=
    pyEnum_value _ Priority.value_injective op.priority.mem_all
  have hstate : pyEnum "SyncState" SyncState.all SyncState.value
      (SqlValue.text (Text.ofString op.syncState.value)).value = .ok op.syncState :=
    pyEnum_value _ SyncState.value_injective op.syncState.mem_all
  have htime := pyFloat_ofFloat h.timestamp
  have henqueued := pyFloat_ofFloat h.enqueuedAt
  simp [rowToOperation, PyOperation.row, PyOperation.columns, insertColumns, Row.item, Row.get,
    List.lookup_cons, ok_bind, loadColumn_json, pyStr_text, pyInt_integer, htype, hpriority, hstate,
    htime, henqueued, pyOptional_text, pyOptional_float, PyOperation.readBack]

/-! ### A table of enqueued operations -/

theorem OutboxQueue.limited_map {α β : Type} (n : ℤ) (f : α → β) (l : List α) :
    limited n (l.map f) = (limited n l).map f := by
  unfold limited
  split_ifs
  · rfl
  · exact List.map_take.symm

namespace OutboxTable

/-- The table after the operations: their rows in turn. -/
theorem enqueueAll_ok {table table' : OutboxTable} {ops : List PyOperation}
    (h : enqueueAll floatRepr table ops = .ok table') :
    (∀ op ∈ ops, op.Accepted floatRepr) ∧
      table'.rows = table.rows ++ ops.map (PyOperation.row floatRepr) := by
  induction ops generalizing table with
  | nil =>
    obtain rfl := Except.ok.inj h
    exact ⟨List.forall_mem_nil _, (List.append_nil _).symm⟩
  | cons op ops ih =>
    rw [enqueueAll, List.foldlM_cons, bind_eq_ok] at h
    obtain ⟨table₁, h₁, h⟩ := h
    obtain ⟨hacc, hins⟩ := enqueue_eq_ok.1 h₁
    obtain ⟨hall, hrows⟩ := ih h
    refine ⟨List.forall_mem_cons.2 ⟨hacc, hall⟩, ?_⟩
    rw [hrows, (Keyed.insert?_rows hins).2, List.append_assoc]
    rfl

theorem eq_of_opId {table : OutboxTable} {ops : List PyOperation}
    (h : enqueueAll floatRepr Keyed.empty ops = .ok table) {a b : PyOperation} (ha : a ∈ ops)
    (hb : b ∈ ops) (hid : a.opId = b.opId) : a = b := by
  have hrows : table.rows = ops.map (PyOperation.row floatRepr) := (enqueueAll_ok h).2
  have hnodup := table.nodup
  rw [hrows, List.map_map] at hnodup
  exact List.inj_on_of_nodup_map hnodup ha hb hid

/-- Accepted operations with ids of their own are all enqueued. -/
theorem enqueueAll_of_accepted {ops : List PyOperation} (hops : ∀ op ∈ ops, op.Accepted floatRepr)
    (table : OutboxTable)
    (hids : (table.rows.map Row.opId ++ ops.map PyOperation.opId).Nodup) :
    ∃ table', enqueueAll floatRepr table ops = .ok table' := by
  induction ops generalizing table with
  | nil => exact ⟨table, rfl⟩
  | cons op ops ih =>
    have hfree : (op.row floatRepr).opId ∉ table.rows.map Row.opId := by
      intro hmem
      exact (List.nodup_append.1 hids).2.2 _ hmem _ (List.mem_cons_self ..) rfl
    obtain ⟨table₁, hins⟩ := table.insert?_isSome _ hfree
    have h₁ := enqueue_eq_ok.2 ⟨hops op (List.mem_cons_self ..), hins⟩
    obtain ⟨table', h⟩ := ih (fun a ha => hops a (List.mem_cons_of_mem _ ha)) table₁ (by
      rw [(Keyed.insert?_rows hins).2, List.map_append, List.append_assoc]
      exact hids)
    exact ⟨table', by rw [enqueueAll, List.foldlM_cons, h₁]; exact h⟩

variable (floatRepr) in
/-- The operations whose rows `get_pending` selects, in its order. -/
def selection (ops : List PyOperation) (limit : ℤ) (priority maxPriority : Option Priority)
    (collection : Option Text) : List PyOperation :=
  OutboxQueue.limited limit
    ((ops.filter fun op => selects priority maxPriority collection (op.row floatRepr)).insertionSort
      fun a b => SendsBefore (a.row floatRepr) (b.row floatRepr))

variable {ops : List PyOperation} {limit : ℤ} {priority maxPriority : Option Priority}
  {collection : Option Text}

theorem mem_selection {op : PyOperation}
    (h : op ∈ selection floatRepr ops limit priority maxPriority collection) : op ∈ ops := by
  have hsorted := (OutboxQueue.limited_initial _ _).subset h
  exact (List.mem_filter.1 ((List.mem_insertionSort _).1 hsorted)).1

/-- With room for all and no filter, every pending operation is selected. -/
theorem mem_selection_all {op : PyOperation} (hop : op ∈ ops) (hpending : op.syncState = .pending)
    (hroom : limit < 0 ∨ (ops.length : ℤ) ≤ limit) :
    op ∈ selection floatRepr ops limit none none none := by
  have hselects : selects none none none (op.row floatRepr) = true := by
    have htext : (op.row floatRepr).text "sync_state" = some (Text.ofString op.syncState.value) := rfl
    rw [selects, htext, hpending]
    rfl
  unfold selection OutboxQueue.limited
  rcases hroom with hneg | hle
  · rw [if_pos hneg, List.mem_insertionSort, List.mem_filter]
    exact ⟨hop, hselects⟩
  · have hlen :=
      List.length_filter_le (fun a : PyOperation => selects none none none (a.row floatRepr)) ops
    rw [if_neg (by omega), List.take_of_length_le (by rw [List.length_insertionSort]; omega),
      List.mem_insertionSort, List.mem_filter]
    exact ⟨hop, hselects⟩

/-- `get_pending` never raises, and returns the selected operations read back. -/
theorem getPending_eq {table : OutboxTable} (hops : ∀ op ∈ ops, op.Accepted floatRepr)
    (hrows : table.rows = ops.map (PyOperation.row floatRepr)) :
    getPending floatRepr table limit priority maxPriority collection =
      .ok ((selection floatRepr ops limit priority maxPriority collection).map
        (PyOperation.readBack floatRepr)) := by
  have hselected : OutboxQueue.limited limit ((table.rows.filter
      (selects priority maxPriority collection)).insertionSort SendsBefore) =
      (selection floatRepr ops limit priority maxPriority collection).map
        (PyOperation.row floatRepr) := by
    rw [selection, ← OutboxQueue.limited_map,
      List.map_insertionSort _ SendsBefore _ _ fun a _ b _ => Iff.rfl, hrows, List.filter_map]
    rfl
  unfold getPending
  rw [hselected, List.mapM_map]
  exact mapM_eq_map fun op hop => rowToOperation_row (hops op (mem_selection hop))

end OutboxTable
end Dhava
