import Dhava.Proofs.Session

/-! What a response can acknowledge. The list of ids stands outside of the encrypted part,
and every row it names is marked, sent or not. -/

namespace Dhava

open Foundations

variable {V : Type}

theorem Exchange.accepted_of_marksFailed {x : Exchange V} (h : x.marksFailed = true) :
    x.accepted = none := by
  cases x with
  | response resp => exact if_pos (of_decide_eq_true h)
  | notSent exc => rfl
  | failed error => rfl
  | undecodable exc => rfl

namespace Engine

/-- Every row that a session turns to `synced` was in its batch. -/
def AcksTransmitted (e : Engine V) (link : Option ℤ) (e' : Engine V) : Prop :=
  ∀ r ∈ e.outbox.rows, r.syncState ≠ .synced →
    ∀ r' ∈ e'.outbox.rows, r'.opId = r.opId → r'.syncState = .synced →
      ∃ bandwidthBps, link = some bandwidthBps ∧ r ∈ e.pendingBatch bandwidthBps

/-- A session that leaves the rows alone, or marks some of them failed, turns none to `synced`. -/
theorem acksTransmitted_of_rows {e e' : Engine V} (link : Option ℤ)
    (h : ∀ r' ∈ e'.outbox.rows, r'.syncState = .synced → r' ∈ e.outbox.rows) :
    e.AcksTransmitted link e' := by
  intro r hr hnot r' hr' hid hsynced
  rw [OutboxQueue.eq_of_opId (h r' hr' hsynced) hr hid] at hsynced
  exact absurd hsynced hnot

/-- Exactly the rows sent can turn to `synced` if and only if an accepted response lists,
of the rows that are not synced yet, only ids of the batch. -/
theorem acks_transmitted_iff (e : Engine V) (sessionId : String) (link : Option ℤ) (now : ℚ)
    (faults : ℕ → Option Fault) (x : Exchange V) :
    e.AcksTransmitted link (e.syncNow sessionId link now faults fun _ => x).1 ↔
      ∀ bandwidthBps resp, link = some bandwidthBps → x.accepted = some resp →
        ∀ r ∈ e.outbox.rows, r.syncState ≠ .synced → r.opId ∈ resp.ackedOpIds →
          r ∈ e.pendingBatch bandwidthBps := by
  rcases e.rows_syncNow sessionId link now faults x with
    ⟨bandwidthBps, error, hlink, hmarks, hrows⟩ | ⟨bandwidthBps, resp, hlink, hacc, hrows⟩ |
      ⟨hno, hrows⟩
  · refine iff_of_true (acksTransmitted_of_rows link fun r' hr' hsynced => ?_) fun _ resp _ hacc => ?_
    · rw [hrows] at hr'
      obtain ⟨r₀, hr₀, rfl⟩ := OutboxQueue.mem_markFailed.1 hr'
      split_ifs at hsynced ⊢
      exact hr₀
    · rw [Exchange.accepted_of_marksFailed hmarks] at hacc
      cases hacc
  · constructor
    · intro h bps resp' hbps hacc' r hr hnot hlisted
      obtain rfl : resp = resp' := Option.some.inj (hacc.symm.trans hacc')
      have hmarked : { r with syncState := .synced, syncedAt := some now } ∈
          (e.outbox.markSynced resp.ackedOpIds now).rows :=
        OutboxQueue.mem_markSynced.2 ⟨r, hr, by rw [if_pos hlisted]⟩
      rw [← hrows] at hmarked
      obtain ⟨bps', hbps', hbatch⟩ := h r hr hnot _ hmarked rfl rfl
      obtain rfl : bps = bps' := Option.some.inj (hbps.symm.trans hbps')
      exact hbatch
    · intro h r hr hnot r' hr' hid hsynced
      rw [hrows] at hr'
      obtain ⟨r₀, hr₀, rfl⟩ := OutboxQueue.mem_markSynced.1 hr'
      refine ⟨bandwidthBps, hlink, ?_⟩
      split_ifs at hid hsynced with hlisted
      · obtain rfl : r₀ = r := OutboxQueue.eq_of_opId hr₀ hr hid
        exact h bandwidthBps resp hlink hacc r₀ hr hnot hlisted
      · rw [OutboxQueue.eq_of_opId hr₀ hr hid] at hsynced
        exact absurd hsynced hnot
  · refine iff_of_true (acksTransmitted_of_rows link fun r' hr' _ => hrows ▸ hr')
      fun _ resp hlink hacc => ?_
    rcases hno with hnone | ⟨-, hnone⟩
    · rw [hnone] at hlink
      cases hlink
    · rw [hnone] at hacc
      cases hacc

/-- An engine with an urgent report and a routine one. -/
def twoReports : Engine ℕ :=
  let call (e : Engine ℕ) (priority : Priority) (opId : String) : Engine ℕ :=
    (e.call { opType := .create, collection := "incidents", recordId := opId, priority, opId
              now := 0, enqueuedAt := 0 }).1
  call (call (Engine.create "a") .p0 "urgent") .p3 "routine"

/-- A response no key was needed for: it names the report that was not sent. -/
def forgedResponse : Exchange ℕ :=
  .response { nodeId := "hq", sessionId := "s", status := "ok", ackedOpIds := ["urgent", "routine"] }

/-- On a slow link only the urgent report is sent, and both are marked. -/
theorem forged_ack_marks_unsent :
    (twoReports.pendingBatch 9600).map Operation.opId = ["urgent"] ∧
      (twoReports.syncNow "s" (some 9600) 1 noFaults fun _ => forgedResponse).1.outbox.rows.map
        (fun r => (r.opId, r.syncState)) = [("urgent", .synced), ("routine", .synced)] ∧
      ¬ twoReports.AcksTransmitted (some 9600)
        (twoReports.syncNow "s" (some 9600) 1 noFaults fun _ => forgedResponse).1 := by
  refine ⟨by decide +kernel, by decide +kernel, fun h => ?_⟩
  have hrows : ∃ r ∈ twoReports.outbox.rows, r.opId = "routine" ∧ r.syncState ≠ .synced ∧
      r ∉ twoReports.pendingBatch 9600 := by decide +kernel
  have hmarked : ∃ r' ∈ (twoReports.syncNow "s" (some 9600) 1 noFaults
      fun _ => forgedResponse).1.outbox.rows, r'.opId = "routine" ∧ r'.syncState = .synced := by
    decide +kernel
  obtain ⟨r, hr, hid, hnot, hunsent⟩ := hrows
  obtain ⟨r', hr', hid', hsynced⟩ := hmarked
  obtain ⟨bandwidthBps, hlink, hbatch⟩ := h r hr hnot r' hr' (hid'.trans hid.symm) hsynced
  obtain rfl := Option.some.inj hlink
  exact hunsent hbatch

end Engine
end Dhava
