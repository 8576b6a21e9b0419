import Dhava.Proofs.Sendable

/-! The way of an operation through the outbox and over the wire: column by column into a row
and out of it, key by key into a dictionary and out of it. What is portable arrives as it was. -/

namespace Dhava

open Foundations

namespace PyValue

theorem plain_ofFields {fields : List (String × PyValue)} (hnames : (fields.map Prod.fst).Nodup) :
    plain (ofFields fields) = fields.all fun f => f.2.plain := by
  rw [ofFields, plain]
  induction fields with
  | nil => rfl
  | cons f fields ih =>
    obtain ⟨hnew, hrest⟩ := List.nodup_cons.1 hnames
    have hkey : PyKey.str (Text.ofString f.1) ∉
        (fields.map fun f => (PyKey.str (Text.ofString f.1), f.2)).map Prod.fst := by
      rw [List.map_map]
      intro hmem
      obtain ⟨g, hg, hname⟩ := List.mem_map.1 hmem
      refine hnew (List.mem_map.2 ⟨g, hg, Text.ofString_injective ?_⟩)
      exact PyKey.str.inj hname
    rw [List.map_cons, plainEntries, ih hrest, List.all_cons, decide_eq_false hkey, PyKey.encodable,
      Text.isUnicode_ofString]
    rfl

/-- `data[name]` in a dictionary with named fields. -/
theorem lookup_ofFields (fields : List (String × PyValue)) (name : String) :
    (fields.map fun f => (PyKey.str (Text.ofString f.1), f.2)).lookup (.str (Text.ofString name)) =
      fields.lookup name := by
  induction fields with
  | nil => rfl
  | cons f fields ih =>
    rw [List.map_cons, List.lookup_cons, List.lookup_cons, ih]
    by_cases h : name = f.1
    · rw [h, beq_self_eq_true, beq_self_eq_true]
    · have hkey : ¬ PyKey.str (Text.ofString name) = PyKey.str (Text.ofString f.1) :=
        fun hk => h (Text.ofString_injective (PyKey.str.inj hk))
      rw [beq_false_of_ne h, beq_false_of_ne hkey]

end PyValue

namespace PyOperation

/-- A payload built from plain values, finite timestamps, 64-bit integers and Unicode strings. -/
structure Portable (op : PyOperation) : Prop where
  payload : ∃ entries, op.payload = .dict entries
  payloadPlain : op.payload.plain = true
  vectorClock : ∃ entries, op.vectorClock = .dict entries
  vectorClockPlain : op.vectorClock.plain = true
  timestamp : ∃ q, op.timestamp = .finite q
  syncedAt : ∀ x, op.syncedAt = some x → ∃ q, x = .finite q
  enqueuedAt : ∃ q, op.enqueuedAt = .finite q
  bindable : op.Bindable

variable {op : PyOperation}

theorem Portable.accepted (h : op.Portable) (floatRepr : PyFloat → String) :
    op.Accepted floatRepr := by
  obtain ⟨payloadJson, hp, -⟩ := PyValue.jsonDumps_of_plain floatRepr _ h.payloadPlain
  obtain ⟨vcJson, hv, -⟩ := PyValue.jsonDumps_of_plain floatRepr _ h.vectorClockPlain
  obtain ⟨q, hq⟩ := h.timestamp
  obtain ⟨q', hq'⟩ := h.enqueuedAt
  exact ⟨⟨_, hp⟩, ⟨_, hv⟩, h.bindable, by rw [hq]; exact PyFloat.noConfusion,
    by rw [hq']; exact PyFloat.noConfusion⟩

/-- A portable operation is read back as it was enqueued. -/
theorem Portable.readBack_eq (h : op.Portable) (floatRepr : PyFloat → String) :
    op.readBack floatRepr = op := by
  obtain ⟨payloadJson, hp, hpayload⟩ := PyValue.jsonDumps_of_plain floatRepr _ h.payloadPlain
  obtain ⟨vcJson, hv, hclock⟩ := PyValue.jsonDumps_of_plain floatRepr _ h.vectorClockPlain
  have hsynced : op.syncedAt.filter (· ≠ .nan) = op.syncedAt := by
    cases hs : op.syncedAt with
    | none => rfl
    | some x =>
      obtain ⟨q, rfl⟩ := h.syncedAt x hs
      rfl
  rw [readBack, PyValue.document_of_ok floatRepr hp, PyValue.document_of_ok floatRepr hv, hpayload,
    hclock, hsynced]

theorem Portable.plain_toDict (h : op.Portable) : op.toDict.plain = true := by
  have htext : ∀ s : Option Text, (∀ t, s = some t → t.isUnicode = true) →
      (PyValue.ofOption .str s).plain = true := fun s hs => by
    cases s with
    | none => rfl
    | some t => exact hs t rfl
  have hsynced : (PyValue.ofOption .float op.syncedAt).plain = true := by
    cases hs : op.syncedAt with
    | none => rfl
    | some x =>
      obtain ⟨q, rfl⟩ := h.syncedAt x hs
      rfl
  obtain ⟨q, hq⟩ := h.timestamp
  obtain ⟨q', hq'⟩ := h.enqueuedAt
  have hb := h.bindable
  have hnames : insertColumns.Nodup := by decide +kernel
  refine (PyValue.plain_ofFields ?_).trans ?_
  · exact hnames
  simp [PyValue.plain, h.payloadPlain, h.vectorClockPlain, hq, hq', hsynced, hb.opId, hb.nodeId,
    hb.collection, hb.recordId, hb.sourceModule, htext _ hb.userId, htext _ hb.authority,
    htext _ hb.lastError, Text.isUnicode_ofString,
    PyValue.fitsMsgpack_of_fitsInteger hb.lamportTimestamp,
    PyValue.fitsMsgpack_of_fitsInteger hb.syncAttempts]

/-- `from_dict` undoes `to_dict`. -/
theorem fromDict_toDict (hclock : ∃ entries, op.vectorClock = .dict entries) :
    fromDict op.toDict = .ok op := by
  have hdict : pyDict op.vectorClock = .ok op.vectorClock := by
    obtain ⟨entries, hentries⟩ := hclock
    rw [hentries]
    rfl
  have htype := pyEnum_value "OperationType" OperationType.value_injective op.opType.mem_all
  have hpriority := pyEnum_value "Priority" Priority.value_injective op.priority.mem_all
  have hstate := pyEnum_value "SyncState" SyncState.value_injective op.syncState.mem_all
  have htext : ∀ s, asText (.str s) = .ok s := fun s => rfl
  have hfloat : ∀ x, pyFloat (.float x) = .ok x := fun x => rfl
  have hint : ∀ n, pyInt (.int n) = .ok n := fun n => rfl
  have hoption : ∀ s : Option Text, pyOptional asText (PyValue.ofOption .str s) = .ok s := fun s => by
    cases s <;> rfl
  have hsynced : pyOptional pyFloat (PyValue.ofOption .float op.syncedAt) = .ok op.syncedAt := by
    cases op.syncedAt <;> rfl
  simp only [fromDict, toDict, PyValue.ofFields, ok_bind, PyValue.lookup_ofFields]
  simp [List.lookup_cons, item, ok_bind, hdict, htype, hpriority, hstate, htext, hfloat, hint, hoption,
    hsynced]

end PyOperation

namespace OutboxTable

/-- A portable operation is enqueued where its id is free. Whatever else has been enqueued,
`get_pending` reads it back as it was, and it arrives as it was. -/
theorem persisted_unchanged (floatRepr : PyFloat → String) (m : Msgpack) (hpacks : m.Packs)
    (hround : m.RoundTrips) (op : PyOperation) (hop : op.Portable) :
    (∀ table : OutboxTable, (∀ row ∈ table.rows, row.opId ≠ op.opId) →
      ∃ table', enqueue floatRepr table op = .ok table') ∧
    ∀ ops table, op ∈ ops → enqueueAll floatRepr Keyed.empty ops = .ok table →
      ∀ limit priority maxPriority collection, ∃ batch,
        getPending floatRepr table limit priority maxPriority collection = .ok batch ∧
          (∀ op' ∈ batch, op'.opId = op.opId → ∃ bytes data,
            m.packMsgpack op'.toDict = .ok bytes ∧ m.unpackMsgpack bytes = .ok data ∧
              PyOperation.fromDict data = .ok op) ∧
          (op.syncState = .pending → limit < 0 ∨ (ops.length : ℤ) ≤ limit → priority = none →
            maxPriority = none → collection = none → op ∈ batch) := by
  refine ⟨fun table hfree => ?_, fun ops table hmem h limit priority maxPriority collection => ?_⟩
  · have hnew : (op.row floatRepr).opId ∉ table.rows.map Row.opId := fun hmem => by
      obtain ⟨row, hrow, hid⟩ := List.mem_map.1 hmem
      exact hfree row hrow hid
    obtain ⟨table', hins⟩ := table.insert?_isSome _ hnew
    exact ⟨table', enqueue_eq_ok.2 ⟨hop.accepted floatRepr, hins⟩⟩
  · obtain ⟨hops, hrows⟩ := enqueueAll_ok h
    refine ⟨_, getPending_eq hops hrows, fun op' hop' hid => ?_, ?_⟩
    · obtain ⟨op₁, hop₁, rfl⟩ := List.mem_map.1 hop'
      obtain rfl := eq_of_opId h (mem_selection hop₁) hmem hid
      rw [hop.readBack_eq]
      obtain ⟨bytes, hpack, hunpack⟩ := m.packMsgpack_of_plain hpacks hround hop.plain_toDict
      exact ⟨bytes, _, hpack, hunpack, PyOperation.fromDict_toDict hop.vectorClock⟩
    · rintro hpending hroom rfl rfl rfl
      refine List.mem_map.2 ⟨op, mem_selection_all hmem hpending hroom, hop.readBack_eq floatRepr⟩

end OutboxTable

theorem exactMsgpack_roundTrips : exactMsgpack.RoundTrips := by
  intro v bytes _ h
  simp only [exactMsgpack] at h
  split_ifs at h
  obtain rfl := Except.ok.inj h
  rfl

/-- A report of a user, with a payload of several levels. -/
def triageReport : PyOperation where
  opId := Text.ofString "report"
  nodeId := Text.ofString "a"
  opType := .merge
  collection := Text.ofString "incidents"
  recordId := Text.ofString "r"
  payload := .dict
    [(.str (Text.ofString "casualties"), .int 3),
      (.str (Text.ofString "notes"), .list [.str (Text.ofString "triage"), .none, .bool true]),
      (.str (Text.ofString "site"), .dict [(.str (Text.ofString "lat"), .float (.finite (1 / 2)))])]
  timestamp := .finite (3 / 2)
  vectorClock := .dict [(.str (Text.ofString "a"), .int 2), (.str (Text.ofString "b"), .int 1)]
  lamportTimestamp := 7
  priority := .p0
  userId := some (Text.ofString "medic")
  enqueuedAt := .finite 2

theorem triageReport_portable : triageReport.Portable where
  payload := ⟨_, rfl⟩
  payloadPlain := by decide +kernel
  vectorClock := ⟨_, rfl⟩
  vectorClockPlain := by decide +kernel
  timestamp := ⟨_, rfl⟩
  syncedAt := fun x hx => by cases hx
  enqueuedAt := ⟨_, rfl⟩
  bindable := by
    constructor
    case userId => exact fun s hs => Option.some.inj hs ▸ Text.isUnicode_ofString _
    case authority => exact fun s hs => by cases hs
    case lastError => exact fun s hs => by cases hs
    case lamportTimestamp => rfl
    case syncAttempts => rfl
    all_goals exact Text.isUnicode_ofString _

namespace OutboxTable

theorem persisted_unchanged_example : ∃ table batch,
    enqueueAll (fun _ => "") Keyed.empty [countOperation "large" (2 ^ 64), triageReport] = .ok table ∧
      getPending (fun _ => "") table 100 none none none = .ok batch ∧
      ∃ op' ∈ batch, ∃ bytes data, exactMsgpack.packMsgpack op'.toDict = .ok bytes ∧
        exactMsgpack.unpackMsgpack bytes = .ok data ∧ PyOperation.fromDict data = .ok triageReport := by
  have hops : ∀ op ∈ [countOperation "large" (2 ^ 64), triageReport], op.Accepted fun _ => "" := by
    intro op hop
    rcases List.mem_pair.1 hop with rfl | rfl
    · exact countOperation_accepted _ _
    · exact triageReport_portable.accepted _
  obtain ⟨table, htable⟩ := enqueueAll_of_accepted hops Keyed.empty (by decide +kernel)
  obtain ⟨batch, hbatch, hsame, hall⟩ := (persisted_unchanged (fun _ => "") exactMsgpack
    exactMsgpack_packs exactMsgpack_roundTrips triageReport triageReport_portable).2 _ table
    (by simp) htable 100 none none none
  have hmem := hall rfl (Or.inr (by decide)) rfl rfl rfl
  exact ⟨table, batch, htable, hbatch, triageReport, hmem, hsame _ hmem rfl⟩

end OutboxTable
end Dhava
