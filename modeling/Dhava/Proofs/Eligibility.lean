import Dhava.Proofs.History

/-! Which writes the next sync can still pick up. A failed session marks its batch
`failed`, and only a restart makes failed rows pending again. -/

namespace Dhava

open Foundations

variable {V : Type}

namespace Node

/-- Every issued operation that no processed response has listed is returned by
`get_pending` without a filter and with room for the outbox. -/
def Eligible (node : Node V) : Prop :=
  ∀ op ∈ node.ops, op.opId ∉ node.acked → ∀ limit : ℤ, (node.engine.outbox.rows.length : ℤ) ≤ limit →
    ∃ o ∈ node.engine.outbox.getPending limit, o.asCreated = op

/-- A sync that ends on an exit that marks the batch failed had only acknowledged
operations in its batch. -/
def FailsAckedOnly (node : Node V) : NodeEvent V → Prop
  | .call _ => True
  | .sync _ link _ _ x => ∀ bandwidthBps, link = some bandwidthBps → x.marksFailed = true →
      ∀ op ∈ node.engine.pendingBatch bandwidthBps, op.opId ∈ node.acked

/-- The same, as a statement about rows. -/
theorem eligible_iff_row (node : Node V) :
    node.Eligible ↔ ∀ op ∈ node.ops, op.opId ∉ node.acked →
      ∃ o ∈ node.engine.outbox.rows, o.syncState = .pending ∧ o.asCreated = op := by
  constructor
  · intro h op hop hack
    obtain ⟨o, ho, he⟩ := h op hop hack _ le_rfl
    obtain ⟨hrow, hpend⟩ := (OutboxQueue.mem_getPending_all _ le_rfl o).1 ho
    exact ⟨o, hrow, hpend, he⟩
  · intro h op hop hack limit hlimit
    obtain ⟨o, hrow, hpend, he⟩ := h op hop hack
    exact ⟨o, (OutboxQueue.mem_getPending_all _ hlimit o).2 ⟨hrow, hpend⟩, he⟩

theorem eligible_create (nodeId : String) (config : EngineConfig) :
    (create nodeId config : Node V).Eligible := by
  intro op hop
  simp [create, ops] at hop

theorem eligible_call {node : Node V} (h : node.Eligible) (c : LocalCall V) :
    (node.call c).Eligible := by
  rw [eligible_iff_row] at h ⊢
  intro op hop hack
  rw [call_acked] at hack
  rcases node.call_cases c with ⟨hissued, hrows⟩ | ⟨hissued, hrows, -⟩
  · rw [hrows]
    rw [ops, hissued, List.map_append, List.mem_append] at hop
    rcases hop with hold | hnew
    · obtain ⟨o, hrow, hpend, he⟩ := h op hold hack
      exact ⟨o, List.mem_append_left _ hrow, hpend, he⟩
    · obtain rfl : op = node.engine.stamped c := by simpa [issue] using hnew
      exact ⟨_, List.mem_append_right _ (List.mem_singleton_self _), rfl, rfl⟩
  · rw [hrows]
    rw [ops, hissued] at hop
    exact h op hop hack

/-- A failing session keeps the writes eligible only if its batch was acknowledged before. -/
theorem acked_of_eligible_failed {node : Node V} (hrows : node.RowsIssued) {sessionId : String}
    {bandwidthBps : ℤ} {now : ℚ} {faults : ℕ → Option Fault} {x : Exchange V}
    (hx : x.marksFailed = true)
    (h : (node.sync sessionId (some bandwidthBps) now faults x).Eligible) :
    ∀ op ∈ node.engine.pendingBatch bandwidthBps, op.opId ∈ node.acked := by
  intro op hop
  by_contra hack
  have hacc : x.accepted = none := by
    cases x with
    | response resp => simpa [Exchange.marksFailed, Exchange.accepted] using hx
    | notSent exc => rfl
    | failed error => rfl
    | undecodable exc => rfl
  have hacked := node.acked_sync_of_none sessionId (some bandwidthBps) now faults hacc
  rw [eligible_iff_row] at h
  obtain ⟨o, ho, hpend, he⟩ :=
    h op.asCreated (hrows op (OutboxQueue.mem_getPending hop).1) (hacked ▸ hack)
  have hid : o.opId = op.opId := Operation.opId_eq_of_asCreated (b := op) he
  change o ∈ (node.engine.syncNow sessionId (some bandwidthBps) now faults fun _ => x).1.outbox.rows
    at ho
  rcases node.engine.rows_syncNow sessionId (some bandwidthBps) now faults x with
    ⟨bps, error, hbps, -, hfailed⟩ | ⟨_, resp, -, hresp, -⟩ | ⟨hnone | hno, -⟩
  · -- the row of `op` is in the failed batch
    obtain rfl := Option.some.inj hbps
    rw [hfailed] at ho
    obtain ⟨r₀, -, rfl⟩ := OutboxQueue.mem_markFailed.1 ho
    split_ifs at hpend with hmem
    · rw [if_neg hmem] at hid
      exact hmem (List.mem_map.2 ⟨op, hop, hid.symm⟩)
  · rw [hacc] at hresp
    cases hresp
  · cases hnone
  · rw [hno.1] at hx
    cases hx

theorem eligible_sync {node : Node V} (h : node.Eligible) {sessionId : String} {link : Option ℤ}
    {now : ℚ} {faults : ℕ → Option Fault} {x : Exchange V}
    (hx : node.FailsAckedOnly (.sync sessionId link now faults x)) :
    (node.sync sessionId link now faults x).Eligible := by
  rw [eligible_iff_row] at h ⊢
  intro op hop hack
  have hackOld : op.opId ∉ node.acked := fun hm => hack (List.mem_append_left _ hm)
  obtain ⟨o, hrow, hpend, he⟩ := h op hop hackOld
  have hid : o.opId = op.opId := by rw [← he, Operation.opId_asCreated]
  refine ⟨o, ?_, hpend, he⟩
  change o ∈ (node.engine.syncNow sessionId link now faults fun _ => x).1.outbox.rows
  rcases node.engine.rows_syncNow sessionId link now faults x with
    ⟨bps, error, hbps, hmark, hrows⟩ | ⟨bps, resp, hbps, hresp, hrows⟩ | ⟨-, hrows⟩
  · rw [hrows, OutboxQueue.mem_markFailed]
    refine ⟨o, hrow, (if_neg fun hmem => ?_).symm⟩
    obtain ⟨b, hb, hbid⟩ := List.mem_map.1 hmem
    exact hackOld (hid ▸ hbid ▸ hx bps hbps hmark b hb)
  · rw [hrows, OutboxQueue.mem_markSynced]
    refine ⟨o, hrow, (if_neg fun hmem => hack ?_).symm⟩
    rw [hbps, acked_sync_of_accepted _ _ _ _ _ hresp]
    exact List.mem_append_right _ (hid ▸ hmem)
  · rw [hrows]
    exact hrow

/-- Every unacknowledged write stays eligible throughout a run without restart exactly when
each session that marks its batch failed had nothing unacknowledged in it. -/
theorem always_eligible_iff (nodeId : String) (config : EngineConfig) (evs : List (NodeEvent V)) :
    (∀ evs', evs' <+: evs → (replay step (create nodeId config) evs').Eligible) ↔
      Admitted step FailsAckedOnly (create nodeId config) evs := by
  have hok : Admitted step (fun _ _ => True) (create nodeId config) evs := admitted_true _ _
  refine always_iff_admitted (eligible_create nodeId config) ?_ hok
  intro evs ev _ _ helig
  have hrows : (replay step (create nodeId config) evs).RowsIssued :=
    (admitted_true _ evs).invariant (rowsIssued_create nodeId config)
      fun node e hn _ => rowsIssued_step hn e
  cases ev with
  | call c => exact ⟨fun _ => trivial, fun _ => eligible_call helig c⟩
  | sync sessionId link now faults x =>
    refine ⟨fun h bps hlink hx => ?_, fun h => eligible_sync helig h⟩
    subst hlink
    exact acked_of_eligible_failed hrows hx h

/-- A field report over a link that gets no reply. -/
def droppedReport : Node ℕ :=
  replay step (create "edge")
    [.call { opType := .create, collection := "incidents", recordId := "r", opId := "u", now := 0,
             enqueuedAt := 0 },
      .sync "1" (some 2000000) 1 noFaults (.failed "Peer did not respond")]

/-- The report is in the outbox and nothing has acknowledged it, but only a restart would
make it pending again. -/
theorem droppedReport_not_eligible : ¬ droppedReport.Eligible := by
  rw [eligible_iff_row]
  intro h
  have hno : ∀ op ∈ droppedReport.ops, op.opId ∉ droppedReport.acked ∧
      ∀ o ∈ droppedReport.engine.outbox.rows, o.syncState ≠ .pending := by decide +kernel
  obtain ⟨op, hop⟩ : ∃ op, op ∈ droppedReport.ops :=
    List.exists_mem_of_ne_nil _ (by decide +kernel)
  obtain ⟨o, hrow, hpend, -⟩ := h op hop (hno op hop).1
  exact (hno op hop).2 o hrow hpend

end Node
end Dhava
