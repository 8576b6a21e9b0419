import Dhava.Proofs.WirePath
import Mathlib.Data.String.Basic

/-! The queue of `Spec.Outbox` and the table of `Spec.Persistence`: a queue of operations whose
numbers fit their columns is the table of their rows, and both select the same batches. -/

namespace Dhava

open Foundations

/-- What a field of a portable payload holds. -/
abbrev PlainValue := { v : PyValue // v.plain = true }

namespace Operation

/-- The operation with the values Python has for its fields. -/
def toPy (op : Operation PlainValue) : PyOperation where
  opId := Text.ofString op.opId
  nodeId := Text.ofString op.nodeId
  opType := op.opType
  collection := Text.ofString op.collection
  recordId := Text.ofString op.recordId
  payload := .ofFields (op.payload.sortedEntries.map fun e => (e.1, e.2.val))
  timestamp := .finite op.timestamp
  vectorClock := .ofFields (op.vectorClock.sortedEntries.map fun e => (e.1, .int e.2))
  lamportTimestamp := op.lamportTimestamp
  priority := op.priority
  userId := op.userId.map Text.ofString
  authority := op.authority.map Text.ofString
  sourceModule := Text.ofString op.sourceModule
  syncState := op.syncState
  syncedAt := op.syncedAt.map PyFloat.finite
  syncAttempts := op.syncAttempts
  lastError := op.lastError.map Text.ofString
  enqueuedAt := .finite op.enqueuedAt

/-- The numbers of the operation fit their columns, and its counters MessagePack. -/
structure Fits (op : Operation PlainValue) : Prop where
  lamportTimestamp : SqlValue.fitsInteger op.lamportTimestamp = true
  syncAttempts : SqlValue.fitsInteger op.syncAttempts = true
  counters : ∀ k n, op.vectorClock.lookup k = some n → PyValue.fitsMsgpack n = true

theorem plain_ofDict {β : Type} (d : Dict String β) (f : β → PyValue)
    (hf : ∀ k v, d.lookup k = some v → (f v).plain = true) :
    (PyValue.ofFields (d.sortedEntries.map fun e => (e.1, f e.2))).plain = true := by
  have hnames : ((d.sortedEntries.map fun e => (e.1, f e.2)).map Prod.fst).Nodup := by
    rw [List.map_map]
    change (d.sortedEntries.map Prod.fst).Nodup
    rw [Dict.keys_sortedEntries]
    exact Finset.sort_nodup ..
  rw [PyValue.plain_ofFields hnames, List.all_eq_true]
  intro e he
  obtain ⟨⟨k, v⟩, hmem, rfl⟩ := List.mem_map.1 he
  exact hf k v (Dict.mem_sortedEntries.1 hmem)

theorem portable_toPy {op : Operation PlainValue} (h : op.Fits) : op.toPy.Portable where
  payload := ⟨_, rfl⟩
  payloadPlain := plain_ofDict op.payload Subtype.val fun _ v _ => v.property
  vectorClock := ⟨_, rfl⟩
  vectorClockPlain := plain_ofDict op.vectorClock PyValue.int h.counters
  timestamp := ⟨_, rfl⟩
  syncedAt := fun x hx => by
    obtain ⟨q, -, rfl⟩ := Option.map_eq_some_iff.1 hx
    exact ⟨q, rfl⟩
  enqueuedAt := ⟨_, rfl⟩
  bindable := by
    have hoption : ∀ (s : Option String) t, s.map Text.ofString = some t → t.isUnicode = true := by
      intro s t ht
      obtain ⟨u, -, rfl⟩ := Option.map_eq_some_iff.1 ht
      exact Text.isUnicode_ofString u
    constructor
    case userId => exact hoption op.userId
    case authority => exact hoption op.authority
    case lastError => exact hoption op.lastError
    case lamportTimestamp => exact h.lamportTimestamp
    case syncAttempts => exact h.syncAttempts
    all_goals exact Text.isUnicode_ofString _

end Operation

/-! ### The same selection -/

variable (floatRepr : PyFloat → String)

/-- The row of an operation of the queue. -/
def Operation.row (op : Operation PlainValue) : Row := op.toPy.row floatRepr

namespace OutboxTable

theorem text_eq_iff {row : Row} {column s t : String} (h : row.text column = some (Text.ofString s)) :
    row.text column = some (Text.ofString t) ↔ s = t := by
  rw [h, Option.some.injEq]
  exact Text.ofString_injective.eq_iff

theorem level_row (op : Operation PlainValue) : level (op.row floatRepr) = op.priority.level := by
  have htext : (op.row floatRepr).text "priority" = some (Text.ofString op.priority.value) := rfl
  unfold level
  rw [htext]
  cases op.priority <;> decide +kernel

theorem sendsBefore_row (a b : Operation PlainValue) :
    OutboxQueue.SendsBefore a b ↔ SendsBefore (a.row floatRepr) (b.row floatRepr) := by
  have hinstant : ∀ op : Operation PlainValue,
      instant (op.row floatRepr) = ((op.timestamp : WithTop ℚ) : WithBot (WithTop ℚ)) := fun _ => rfl
  rw [OutboxQueue.SendsBefore, SendsBefore, level_row, level_row, hinstant, hinstant,
    WithBot.coe_le_coe, WithTop.coe_le_coe]

theorem selects_row (priority maxPriority : Option Priority) (collection : Option String)
    (op : Operation PlainValue) :
    selects priority maxPriority (collection.map Text.ofString) (op.row floatRepr) =
      OutboxQueue.selects priority maxPriority collection op := by
  have hstate : (op.row floatRepr).text "sync_state" = some (Text.ofString op.syncState.value) := rfl
  have hpriority : (op.row floatRepr).text "priority" = some (Text.ofString op.priority.value) := rfl
  have hcollection : (op.row floatRepr).text "collection" = some (Text.ofString op.collection) := rfl
  have hvalue : ∀ p : Priority, (op.row floatRepr).text "priority" = some (Text.ofString p.value) ↔
      op.priority = p := fun p => by
    rw [text_eq_iff hpriority]
    exact Priority.value_injective.eq_iff
  have hpending : (op.row floatRepr).text "sync_state" = some (Text.ofString "pending") ↔
      op.syncState = .pending := by
    rw [text_eq_iff hstate]
    exact SyncState.value_injective.eq_iff (b := .pending)
  unfold selects OutboxQueue.selects
  congr 1
  · congr 1
    · exact decide_eq_decide.2 hpending
    · cases priority with
      | some p => exact decide_eq_decide.2 (hvalue p)
      | none =>
        cases maxPriority with
        | none => rfl
        | some m =>
          refine decide_eq_decide.2 ?_
          rw [List.mem_map]
          constructor
          · rintro ⟨p, hp, htext⟩
            exact (hvalue p).1 htext.symm ▸ hp
          · intro hp
            exact ⟨op.priority, hp, hpriority.symm⟩
  · cases collection with
    | none => rfl
    | some c => exact decide_eq_decide.2 (text_eq_iff hcollection)

/-- The table holds the rows of the queue. -/
def Holds (table : OutboxTable) (q : OutboxQueue PlainValue) : Prop :=
  table.rows = q.rows.map (Operation.row floatRepr)

variable {floatRepr}

/-- A table holds the queue it has taken the operations of. -/
theorem holds_enqueue {table : OutboxTable} {q q' : OutboxQueue PlainValue}
    {op : Operation PlainValue} (hop : op.Fits) (h : table.Holds floatRepr q)
    (hq : q.enqueue op = .ok q') :
    ∃ table', enqueue floatRepr table op.toPy = .ok table' ∧ table'.Holds floatRepr q' := by
  have hfree : (op.row floatRepr).opId ∉ table.rows.map Row.opId := by
    rcases q.enqueue_cases op with ⟨-, -, -, hfree⟩ | ⟨⟨exc, herr⟩, -⟩
    · rw [h, List.map_map]
      intro hmem
      obtain ⟨a, ha, hid⟩ := List.mem_map.1 hmem
      exact hfree a ha (Text.ofString_injective hid)
    · rw [hq] at herr
      cases herr
  obtain ⟨table', hins⟩ := table.insert?_isSome _ hfree
  refine ⟨table', enqueue_eq_ok.2 ⟨(Operation.portable_toPy hop).accepted floatRepr, hins⟩, ?_⟩
  rw [Holds, (Keyed.insert?_rows hins).2, h, OutboxQueue.enqueue_ok hq, List.map_append]
  rfl

/-- `get_pending` on the table reads what it returns on the queue. -/
theorem getPending_holds {table : OutboxTable} {q : OutboxQueue PlainValue}
    (h : table.Holds floatRepr q) (hfits : ∀ op ∈ q.rows, op.Fits) (limit : ℤ)
    (priority maxPriority : Option Priority) (collection : Option String) :
    getPending floatRepr table limit priority maxPriority (collection.map Text.ofString) =
      .ok ((q.getPending limit priority maxPriority collection).map Operation.toPy) := by
  have hselected : OutboxQueue.limited limit ((table.rows.filter
      (selects priority maxPriority (collection.map Text.ofString))).insertionSort SendsBefore) =
      (q.getPending limit priority maxPriority collection).map (Operation.row floatRepr) := by
    rw [OutboxQueue.getPending, ← OutboxQueue.limited_map,
      List.map_insertionSort _ SendsBefore _ _ fun a _ b _ => sendsBefore_row floatRepr a b, h,
      List.filter_map]
    congr 3
    exact List.filter_congr fun op _ => selects_row floatRepr priority maxPriority collection op
  unfold getPending
  rw [hselected, List.mapM_map]
  refine mapM_eq_map fun op hop => ?_
  have hport := Operation.portable_toPy (hfits op (OutboxQueue.mem_getPending hop).1)
  exact (rowToOperation_row (hport.accepted floatRepr)).trans
    (congrArg Except.ok (hport.readBack_eq floatRepr))

end OutboxTable
end Dhava
