import Dhava.Foundations.Climb
import Dhava.Proofs.Session
import Dhava.Spec.LocalWrite

/-! What a local call and a `sync_now` do to the Lamport counter of an engine. It is read
and written in memory only. -/

namespace Dhava

open Foundations

variable {V : Type}

namespace Engine

/-! ### Local calls -/

theorem lamportCounter_auditLocalWrite (e : Engine V) (op : Operation V) :
    (e.auditLocalWrite op).lamportCounter = e.lamportCounter := by
  unfold auditLocalWrite
  split_ifs <;> rfl

theorem lamportCounter_auditUnder (e : Engine V) (op : Operation V) (record : Record V)
    (audit : TxEnd) : (e.auditUnder op record audit).1.lamportCounter = e.lamportCounter := by
  unfold auditUnder
  split_ifs
  · cases audit with
    | committed => exact lamportCounter_auditLocalWrite e op
    | raised exc => rfl
    | stopped b =>
      cases b with
      | false => rfl
      | true => exact lamportCounter_auditLocalWrite e op
  · rfl

theorem lamportCounter_enqueueUnder (e : Engine V) (op : Operation V) (record : Record V)
    (enqueue audit : TxEnd) :
    (e.enqueueUnder op record enqueue audit).1.lamportCounter = e.lamportCounter := by
  unfold enqueueUnder
  cases e.outbox.enqueue op with
  | error exc =>
    cases enqueue with
    | committed => rfl
    | raised exc => rfl
    | stopped b => cases b <;> rfl
  | ok outbox =>
    cases enqueue with
    | committed => exact lamportCounter_auditUnder _ op record audit
    | raised exc => rfl
    | stopped b => cases b <;> rfl

/-- A call counts, however it ends. -/
theorem lamportCounter_callUnder (e : Engine V) (c : LocalCall V) (ends : WriteStep → TxEnd) :
    (e.callUnder c ends).1.lamportCounter = e.lamportCounter + 1 := by
  unfold callUnder
  cases ends .readClock with
  | raised exc => rfl
  | stopped b => rfl
  | committed =>
    cases ends .apply with
    | raised exc => rfl
    | stopped b => cases b <;> rfl
    | committed => exact lamportCounter_enqueueUnder _ _ _ _ _

theorem lamportCounter_pullOne (e : Engine V) (fault : Option Fault) (op : Operation V) :
    (e.pullOne fault op).1.lamportCounter = max e.lamportCounter op.lamportTimestamp + 1 := by
  rcases e.pullOne_cases fault op with ⟨-, -, h⟩ | ⟨exc, -, h⟩ | ⟨exc, -, h⟩ <;>
    rw [h] <;>
    rfl

/-! ### A session -/

/-- The counter steps over each operation the loop has come to, the last one too where it raised. -/
theorem lamportCounter_pullLoop (e : Engine V) (faults : ℕ → Option Fault) (dicts : List (OpDict V)) :
    (e.pullLoop faults dicts).engine.lamportCounter =
      ((e.pullLoop faults dicts).processed.map fun op => some op.lamportTimestamp).foldl climb
        e.lamportCounter := by
  induction dicts generalizing e faults with
  | nil => rfl
  | cons d rest ih =>
    unfold pullLoop
    cases hd : Operation.fromDict d with
    | error exc => rfl
    | ok op =>
      have hone := lamportCounter_pullOne e (faults 0) op
      simp only
      rcases hp : e.pullOne (faults 0) op with ⟨e', - | exc⟩
      · rw [hp] at hone
        simp only
        rw [ih, List.map_cons, List.foldl_cons, hone]
        rfl
      · rw [hp] at hone
        exact hone

theorem lamportCounter_auditSync (e : Engine V) (peer : String) (session : SyncSession) :
    (e.auditSync peer session).lamportCounter = e.lamportCounter := by
  unfold auditSync
  split_ifs <;> rfl

section Session

variable (e : Engine V) (sessionId : String) (link : Option ℤ) (now : ℚ)
  (faults : ℕ → Option Fault) (x : Exchange V)

theorem lamportCounter_acceptResponse (ops : List (Operation V)) (resp : SyncPullResponse V)
    (hresp : resp.status ≠ "error") (bandwidthBps : ℤ) :
    ((e.beginSync sessionId bandwidthBps).1.acceptResponse ops now faults resp).1.lamportCounter =
      (e.pulled sessionId (some bandwidthBps) now faults (.response resp)).engine.lamportCounter := by
  unfold acceptResponse pulled Exchange.accepted
  simp only [if_neg hresp]
  cases unpackResponse resp with
  | error exc => rfl
  | ok dicts =>
    simp only
    split
    · rfl
    · exact lamportCounter_auditSync _ _ _

/-- Beside its pull loop a session leaves the counter alone. -/
theorem lamportCounter_syncNow :
    (e.syncNow sessionId link now faults fun _ => x).1.lamportCounter =
      (e.pulled sessionId link now faults x).engine.lamportCounter := by
  cases link with
  | none => rfl
  | some bandwidthBps =>
    cases x with
    | notSent exc => rfl
    | failed error => rfl
    | undecodable exc => rfl
    | response resp =>
      unfold syncNow finishSync
      by_cases hresp : resp.status = "error"
      · simp only [if_pos hresp, pulled, Exchange.accepted]
        rfl
      · simp only [if_neg hresp]
        exact lamportCounter_acceptResponse e sessionId now faults _ resp hresp bandwidthBps

theorem lamportCounter_pulled :
    (e.pulled sessionId link now faults x).engine.lamportCounter =
      ((e.pulled sessionId link now faults x).processed.map
        fun op => some op.lamportTimestamp).foldl climb e.lamportCounter := by
  unfold pulled
  rcases link with - | bandwidthBps
  · rfl
  rcases x.accepted with - | resp
  · rfl
  simp only
  cases unpackResponse resp with
  | error exc => rfl
  | ok dicts => exact lamportCounter_pullLoop _ faults dicts

end Session
end Engine
end Dhava
