import Dhava.Proofs.Persistence

/-! What the store accepts and what can be sent. JSON takes integers of any size and strings
with surrogates, MessagePack does not: a batch is packed exactly if every operation in it is
sendable. -/

namespace Dhava

open Foundations

namespace PyValue

theorem isJson_ofFields (fields : List (String × PyValue)) :
    isJson (ofFields fields) = fields.all fun f => f.2.isJson := by
  rw [ofFields, isJson]
  induction fields with
  | nil => rfl
  | cons f fields ih =>
    rw [List.map_cons, isJsonEntries, ih, List.all_cons]
    rfl

theorem encodable_ofFields (fields : List (String × PyValue)) :
    encodable (ofFields fields) = fields.all fun f => f.2.encodable := by
  rw [ofFields, encodable]
  induction fields with
  | nil => rfl
  | cons f fields ih =>
    rw [List.map_cons, encodableEntries, ih, List.all_cons, PyKey.encodable, Text.isUnicode_ofString,
      Bool.true_and]

theorem isJsonItems_eq (items : List PyValue) : isJsonItems items = items.all isJson := by
  induction items with
  | nil => rfl
  | cons item items ih => rw [isJsonItems, ih, List.all_cons]

theorem encodableItems_eq (items : List PyValue) : encodableItems items = items.all encodable := by
  induction items with
  | nil => rfl
  | cons item items ih => rw [encodableItems, ih, List.all_cons]

theorem fitsMsgpack_of_fitsInteger {n : ℤ} (h : SqlValue.fitsInteger n = true) :
    fitsMsgpack n = true := by
  simp only [SqlValue.fitsInteger, fitsMsgpack, Bool.and_eq_true, decide_eq_true_eq] at h ⊢
  omega

theorem encodable_ofOption {s : Option Text} (h : ∀ t, s = some t → t.isUnicode = true) :
    encodable (ofOption .str s) = true := by
  cases s with
  | none => rfl
  | some t => exact h t rfl

end PyValue

namespace PyOperation

/-- JSON gives the payload and the clock back as MessagePack takes them. -/
def Sendable (floatRepr : PyFloat → String) (op : PyOperation) : Prop :=
  op.payload.sendable floatRepr = true ∧ op.vectorClock.sendable floatRepr = true

theorem isJson_toDict {op : PyOperation} (hp : op.payload.isJson = true)
    (hv : op.vectorClock.isJson = true) : op.toDict.isJson = true := by
  have htext : ∀ s : Option Text, (PyValue.ofOption .str s).isJson = true := fun s => by
    cases s <;> rfl
  have hfloat : ∀ x : Option PyFloat, (PyValue.ofOption .float x).isJson = true := fun x => by
    cases x <;> rfl
  rw [toDict, PyValue.isJson_ofFields]
  simp [PyValue.isJson, hp, hv, htext, hfloat]

/-- In the dictionary of an operation with bound columns, only payload and clock can keep
MessagePack from it. -/
theorem encodable_toDict {op : PyOperation} (h : op.Bindable) :
    op.toDict.encodable = (op.payload.encodable && op.vectorClock.encodable) := by
  have hfloat : (PyValue.ofOption PyValue.float op.syncedAt).encodable = true := by
    cases op.syncedAt <;> rfl
  rw [toDict, PyValue.encodable_ofFields]
  simp [PyValue.encodable, h.opId, h.nodeId, h.collection, h.recordId, h.sourceModule,
    PyValue.fitsMsgpack_of_fitsInteger h.lamportTimestamp,
    PyValue.fitsMsgpack_of_fitsInteger h.syncAttempts, Text.isUnicode_ofString,
    PyValue.encodable_ofOption h.userId, PyValue.encodable_ofOption h.authority,
    PyValue.encodable_ofOption h.lastError, hfloat]

variable {floatRepr : PyFloat → String} {op : PyOperation}

theorem isJson_readBack (floatRepr : PyFloat → String) (op : PyOperation) :
    (op.readBack floatRepr).toDict.isJson = true :=
  isJson_toDict (PyValue.isJson_jsonLoads _) (PyValue.isJson_jsonLoads _)

/-- The operation read back is one MessagePack takes exactly if the one enqueued was sendable. -/
theorem encodable_readBack (h : op.Accepted floatRepr) :
    (op.readBack floatRepr).toDict.encodable = true ↔ op.Sendable floatRepr := by
  have hbind : (op.readBack floatRepr).Bindable :=
    ⟨h.bindable.opId, h.bindable.nodeId, h.bindable.collection, h.bindable.recordId,
      h.bindable.sourceModule, h.bindable.userId, h.bindable.authority, h.bindable.lastError,
      h.bindable.lamportTimestamp, h.bindable.syncAttempts⟩
  obtain ⟨payloadJson, hp⟩ := h.payload
  obtain ⟨vcJson, hv⟩ := h.vectorClock
  have hpayload : (op.readBack floatRepr).payload = jsonLoads payloadJson :=
    congrArg jsonLoads (PyValue.document_of_ok floatRepr hp)
  have hclock : (op.readBack floatRepr).vectorClock = jsonLoads vcJson :=
    congrArg jsonLoads (PyValue.document_of_ok floatRepr hv)
  rw [encodable_toDict hbind, hpayload, hclock, PyValue.encodable_jsonLoads _ _ hp,
    PyValue.encodable_jsonLoads _ _ hv, Bool.and_eq_true]
  rfl

end PyOperation

namespace OutboxTable

variable {floatRepr : PyFloat → String}

/-- Whatever has been enqueued, the batch `get_pending` reads back is packed exactly if every
operation selected is sendable, and each operation alone if it is. -/
theorem batch_packs_iff (m : Msgpack) (hm : m.Packs) (ops : List PyOperation) (table : OutboxTable)
    (h : enqueueAll floatRepr Keyed.empty ops = .ok table) (limit : ℤ)
    (priority maxPriority : Option Priority) (collection : Option Text) :
    ∃ batch, getPending floatRepr table limit priority maxPriority collection = .ok batch ∧
      (∀ op ∈ ops, ∀ op' ∈ batch, op'.opId = op.opId →
        ((∃ bytes, m.packMsgpack op'.toDict = .ok bytes) ↔ op.Sendable floatRepr)) ∧
      ((∃ bytes, m.packMsgpack (.list (batch.map PyOperation.toDict)) = .ok bytes) ↔
        ∀ op ∈ ops, op.opId ∈ batch.map PyOperation.opId → op.Sendable floatRepr) := by
  obtain ⟨hops, hrows⟩ := enqueueAll_ok h
  refine ⟨_, getPending_eq hops hrows, fun op hop op' hop' hid => ?_, ?_⟩
  · obtain ⟨op₁, hop₁, rfl⟩ := List.mem_map.1 hop'
    obtain rfl := eq_of_opId h (mem_selection hop₁) hop hid
    exact (hm _ (PyOperation.isJson_readBack floatRepr op₁)).trans (PyOperation.encodable_readBack (hops op₁ hop))
  · refine (hm (.list _) ?_).trans ?_
    · rw [PyValue.isJson, PyValue.isJsonItems_eq, List.map_map, List.all_map, List.all_eq_true]
      intro op _
      rw [Function.comp_apply, Function.comp_apply]
      exact op.isJson_readBack floatRepr
    · rw [PyValue.encodable, PyValue.encodableItems_eq, List.map_map, List.all_map, List.all_eq_true]
      constructor
      · intro hall op hop hmem
        rw [List.map_map] at hmem
        obtain ⟨op₁, hop₁, hid⟩ := List.mem_map.1 hmem
        obtain rfl := eq_of_opId h (mem_selection hop₁) hop hid
        exact (PyOperation.encodable_readBack (hops op₁ hop)).1 (hall op₁ hop₁)
      · intro hall op hop
        refine (PyOperation.encodable_readBack (hops op (mem_selection hop))).2 ?_
        refine hall op (mem_selection hop) (List.mem_map.2 ⟨op.readBack floatRepr, ?_, rfl⟩)
        exact List.mem_map_of_mem hop

end OutboxTable

/-- A package that packs what MessagePack has a format for, and unpacks what it has packed. -/
def exactMsgpack : Msgpack where
  Bytes := PyValue
  packb v :=
    if v.encodable then .ok v else .error "Cannot serialize object of type <class 'int'> to msgpack"
  unpackb := .ok

theorem exactMsgpack_packs : exactMsgpack.Packs := by
  intro v _
  simp only [exactMsgpack]
  split_ifs with h
  · exact iff_of_true ⟨v, rfl⟩ h
  · exact iff_of_false (fun ⟨bytes, hbytes⟩ => by cases hbytes) h

/-- A create of one record, for the fixed inputs below. -/
def sampleOperation (collection opId : String) (payload : PyValue) : PyOperation where
  opId := Text.ofString opId
  nodeId := Text.ofString "a"
  opType := .create
  collection := Text.ofString collection
  recordId := Text.ofString "r"
  payload
  timestamp := .finite 0
  vectorClock := .dict [(.str (Text.ofString "a"), .int 1)]
  lamportTimestamp := 1
  enqueuedAt := .finite 0

theorem sampleOperation_accepted (collection opId : String) {payload : PyValue}
    (h : ∃ document, jsonDumps (fun _ => "") payload = .ok document) :
    (sampleOperation collection opId payload).Accepted (fun _ => "") where
  payload := h
  vectorClock := ⟨_, rfl⟩
  bindable := by
    constructor <;> first | exact Text.isUnicode_ofString _ | exact fun s hs => by cases hs | rfl
  timestamp := PyFloat.noConfusion
  enqueuedAt := PyFloat.noConfusion

def countPayload (count : ℤ) : PyValue := .dict [(.str (Text.ofString "n"), .int count)]

/-- An operation with one field in its payload. -/
def countOperation (opId : String) (count : ℤ) : PyOperation :=
  sampleOperation "incidents" opId (countPayload count)

theorem countOperation_accepted (opId : String) (count : ℤ) :
    (countOperation opId count).Accepted (fun _ => "") :=
  sampleOperation_accepted _ _ ⟨_, rfl⟩

/-- The largest integer in a set, and the least under a key that is an integer. -/
def nestedPayload : PyValue :=
  .dict
    [(.str (Text.ofString "at"), .list [.float (.finite (3 / 2)), .set [.int (2 ^ 64 - 1), .none]]),
      (.str (Text.ofString "meta"),
        .dict [(.int 7, .int (-2 ^ 63)), (.bool true, .str (Text.ofString "😀"))])]

namespace OutboxTable

/-- The one that MessagePack does not take is of another collection than the batch. -/
theorem batch_packs_example :
    let ops := [countOperation "small" 1, sampleOperation "assets" "large" (countPayload (2 ^ 64)),
      sampleOperation "incidents" "nested" nestedPayload]
    ∃ table batch, enqueueAll (fun _ => "") Keyed.empty ops = .ok table ∧
      getPending (fun _ => "") table 100 none (some .p4) (some (Text.ofString "incidents")) =
        .ok batch ∧
      batch.map PyOperation.opId = [Text.ofString "small", Text.ofString "nested"] ∧
      ∃ bytes, exactMsgpack.packMsgpack (.list (batch.map PyOperation.toDict)) = .ok bytes := by
  intro ops
  have hops : ∀ op ∈ ops, op.Accepted fun _ => "" := by
    simp only [ops, List.forall_mem_cons, List.not_mem_nil, false_implies, implies_true, and_true]
    exact ⟨countOperation_accepted _ _, sampleOperation_accepted _ _ ⟨_, rfl⟩,
      sampleOperation_accepted _ _ ⟨_, rfl⟩⟩
  obtain ⟨table, htable⟩ := enqueueAll_of_accepted hops Keyed.empty (by decide +kernel)
  obtain ⟨batch, hbatch, -, hpacks⟩ := batch_packs_iff exactMsgpack exactMsgpack_packs _ table
    htable 100 none (some .p4) (some (Text.ofString "incidents"))
  obtain rfl := Except.ok.inj
    (hbatch.symm.trans (getPending_eq hops (enqueueAll_ok htable).2))
  refine ⟨table, _, htable, hbatch, by decide +kernel, hpacks.2 ?_⟩
  unfold PyOperation.Sendable
  decide +kernel

/-- The store takes 2^64 and never sends it, nor the operation that waits behind it. -/
theorem accepted_not_packed :
    ∃ table batch, enqueueAll (fun _ => "") Keyed.empty
        [countOperation "large" (2 ^ 64), countOperation "small" 1] = .ok table ∧
      getPending (fun _ => "") table 100 none (some .p4) none = .ok batch ∧
      batch.map PyOperation.opId = [Text.ofString "large", Text.ofString "small"] ∧
      ∀ bytes, exactMsgpack.packMsgpack (.list (batch.map PyOperation.toDict)) ≠ .ok bytes := by
  have hops : ∀ op ∈ [countOperation "large" (2 ^ 64), countOperation "small" 1],
      op.Accepted fun _ => "" := by
    intro op hop
    rcases List.mem_pair.1 hop with rfl | rfl <;> exact countOperation_accepted _ _
  obtain ⟨table, htable⟩ := enqueueAll_of_accepted hops Keyed.empty (by decide +kernel)
  refine ⟨table, _, htable, getPending_eq hops (enqueueAll_ok htable).2, by decide +kernel, ?_⟩
  intro bytes hbytes
  have hnot : PyValue.encodable (.list ((selection (fun _ => "")
      [countOperation "large" (2 ^ 64), countOperation "small" 1] 100 none (some .p4) none).map
        fun op => (op.readBack fun _ => "").toDict)) = false := by decide +kernel
  rw [List.map_map] at hbytes
  simp only [Msgpack.packMsgpack, exactMsgpack] at hbytes
  split_ifs at hbytes with h
  exact Bool.false_ne_true (hnot.symm.trans h)

end OutboxTable
end Dhava
