import Dhava.Proofs.LwwOrder
import Dhava.Proofs.PullDelta
import Dhava.Proofs.Request
import Dhava.Proofs.Session

/-! Two syncs in a row. The first pull merges every clock it receives into the clock the
second one sends, and what the server held back the first time was covered already: the
second delta is empty. -/

namespace Dhava

open Foundations

variable {V : Type}

/-- What the surroundings decide about one `sync_now` over an honest link. -/
structure SyncCall where
  sessionId : String
  bandwidthBps : ℤ
  now : ℚ
  faults : ℕ → Option Fault
  serverNow : Readings
  serverFaults : ℕ → Option Fault

namespace Engine

def request (e : Engine V) (c : SyncCall) : SyncPushRequest V :=
  (e.beginSync c.sessionId c.bandwidthBps).2.2

/-- `sync_now` against the server: what it leaves of the engine, the session it returns,
and what it leaves of the server. -/
def syncWith (e : Engine V) (srv : Server V) (c : SyncCall) : (Engine V × SyncSession) × Server V :=
  (e.syncNow c.sessionId (some c.bandwidthBps) c.now c.faults fun req =>
      .response (srv.handleSyncRequest c.serverFaults c.serverNow req).2,
    (srv.handleSyncRequest c.serverFaults c.serverNow (e.request c)).1)

/-! ### What a vector clock has taken in -/

theorem le_absorbed (clock : VectorClock) (ops : List (Operation V)) : clock ≤ absorbed clock ops := by
  induction ops generalizing clock with
  | nil => exact le_rfl
  | cons op rest ih => exact (clock.le_merge _).trans (ih _)

theorem clock_le_absorbed (clock : VectorClock) {ops : List (Operation V)} {op : Operation V}
    (h : op ∈ ops) : VectorClock.ofDict op.vectorClock ≤ absorbed clock ops := by
  induction ops generalizing clock with
  | nil => cases h
  | cons o rest ih =>
    rcases List.mem_cons.1 h with rfl | hrest
    · exact (clock.ofDict_le_merge _).trans (le_absorbed _ rest)
    · exact ih _ hrest

/-! ### One completed session -/

/-- What a completed session has done to both sides: `delta` is what it pulled. -/
structure SyncedWith (e : Engine V) (srv : Server V) (c : SyncCall)
    (result : (Engine V × SyncSession) × Server V) : Prop where
  identity : result.1.1.identity = e.identity
  completed : Completed e
    (result.2.getOperationsForPeer c.serverNow.enqueued e.globalVectorClock e.nodeId) result.1
  server : result.2.localStore =
    (e.pendingBatch c.bandwidthBps).foldl srv.conflictResolver.process srv.localStore

theorem syncWith_completed {e : Engine V} {srv : Server V} {c : SyncCall}
    (h : (e.syncWith srv c).1.2.status = "completed") : SyncedWith e srv c (e.syncWith srv c) := by
  obtain ⟨hok, dicts, hunpack, hcompleted⟩ :=
    e.syncNow_completed c.sessionId c.now c.faults c.bandwidthBps
      (srv.handleSyncRequest c.serverFaults c.serverNow (e.request c)).2 h
  have hanswer := srv.handleSyncRequest_ok c.serverFaults c.serverNow (e.request c)
    ((srv.handleSyncRequest_status _ _ _).resolve_right hok)
  have hbatch : Server.requestOps (e.request c) = e.pendingBatch c.bandwidthBps :=
    Operation.decoded_map_toDict _
  have hsender : VectorClock.ofDict (e.request c).senderVectorClock = e.globalVectorClock :=
    VectorClock.ofDict_clocks _
  have hpayload := hunpack.symm.trans hanswer.payload
  rw [hsender] at hpayload
  obtain rfl := Except.ok.inj hpayload
  rw [Operation.decoded_map_toDict] at hcompleted
  refine ⟨?_, hcompleted, ?_⟩
  · exact (e.syncNow_synced c.sessionId (some c.bandwidthBps) c.now c.faults (.response _)).identity
  · exact hanswer.localStore.trans (by rw [hbatch])

/-! ### The session after it -/

theorem pendingBatch_eq_nil {e : Engine V} (h : ∀ op ∈ e.outbox.rows, op.syncState ≠ .pending)
    (bandwidthBps : ℤ) : e.pendingBatch bandwidthBps = [] := by
  refine List.eq_nil_iff_forall_not_mem.2 fun op hop => ?_
  obtain ⟨hrow, hsel⟩ := OutboxQueue.mem_getPending hop
  exact h op hrow (OutboxQueue.pending_of_selects hsel)

/-- A server has nothing for a peer that has taken in the delta it was sent. -/
theorem delta_absorbed (srv : Server V) (now now' : ℚ) (clock : VectorClock) (peer : String) :
    srv.getOperationsForPeer now' (absorbed clock (srv.getOperationsForPeer now clock peer)) peer =
      [] := by
  rw [Server.getOperationsForPeer_eq, List.map_eq_nil_iff]
  refine List.eq_nil_iff_forall_not_mem.2 fun r hr => ?_
  obtain ⟨hnew, hlive, hrow⟩ := (srv.mem_deltaRows _ _ _).1 hr
  obtain ⟨hforeign, huncovered⟩ := Server.newForPeer_iff.1 hnew
  by_cases hcovered : VectorClock.ofDict r.vectorClock ≤ clock
  · exact huncovered (hcovered.trans (le_absorbed _ _))
  · -- the row was new before as well, so it was sent
    have hsent : r ∈ srv.deltaRows clock peer :=
      (srv.mem_deltaRows _ _ _).2 ⟨Server.newForPeer_iff.2 ⟨hforeign, hcovered⟩, hlive, hrow⟩
    have hop : Server.snapshotOp now r ∈ srv.getOperationsForPeer now clock peer := by
      rw [Server.getOperationsForPeer_eq]
      exact List.mem_map_of_mem hsent
    have hmerged := clock_le_absorbed clock hop
    exact huncovered hmerged

/-- After a completed sync that leaves nothing pending, a second completed sync pulls nothing
and changes neither the engine's records and clock nor the server's records. -/
theorem repeated_sync_quiescent (e : Engine V) (srv : Server V) (c₁ c₂ : SyncCall)
    (h₁ : (e.syncWith srv c₁).1.2.status = "completed")
    (hdrained : ∀ op ∈ (e.syncWith srv c₁).1.1.outbox.rows, op.syncState ≠ .pending)
    (h₂ : ((e.syncWith srv c₁).1.1.syncWith (e.syncWith srv c₁).2 c₂).1.2.status = "completed") :
    let e₁ := (e.syncWith srv c₁).1.1
    let srv₁ := (e.syncWith srv c₁).2
    let second := e₁.syncWith srv₁ c₂
    second.1.2.opsPulled = 0 ∧ second.1.1.localStore = e₁.localStore ∧
      second.1.1.globalVectorClock = e₁.globalVectorClock ∧
      second.2.localStore = srv₁.localStore := by
  intro e₁ srv₁ second
  have hfirst := syncWith_completed h₁
  have hsecond := syncWith_completed h₂
  have hserver : second.2.localStore = srv₁.localStore := by
    rw [hsecond.server, pendingBatch_eq_nil hdrained]
    rfl
  have hdelta :
      second.2.getOperationsForPeer c₂.serverNow.enqueued e₁.globalVectorClock e₁.nodeId = [] := by
    have hsame : second.2.getOperationsForPeer c₂.serverNow.enqueued e₁.globalVectorClock e₁.nodeId =
        srv₁.getOperationsForPeer c₂.serverNow.enqueued e₁.globalVectorClock e₁.nodeId := by
      unfold Server.getOperationsForPeer
      rw [hserver]
    rw [hsame, nodeId_of_identity hfirst.identity, hfirst.completed.clock]
    exact delta_absorbed srv₁ c₁.serverNow.enqueued c₂.serverNow.enqueued e.globalVectorClock e.nodeId
  have hcompleted := hsecond.completed
  rw [hdelta] at hcompleted
  exact ⟨hcompleted.opsPulled, hcompleted.localStore, hcompleted.clock, hserver⟩

/-- A link without faults. -/
def sampleSync (sessionId : String) : SyncCall where
  sessionId
  bandwidthBps := 128000
  now := 9
  faults := noFaults
  serverNow := 9
  serverFaults := noFaults

theorem repeated_sync_quiescent_example :
    let e : Engine ℕ := ((Engine.create "z").call
      { opType := .create, collection := "incidents", recordId := "q", opId := "u", now := 1
        enqueuedAt := 1 }).1
    let srv := ((Server.create "hq").pushOne none (ConflictResolver.sampleUpdate "b" 5)).1
    let e₁ := (e.syncWith srv (sampleSync "s")).1.1
    let srv₁ := (e.syncWith srv (sampleSync "s")).2
    let second := e₁.syncWith srv₁ (sampleSync "t")
    second.1.2.opsPulled = 0 ∧ second.1.1.localStore = e₁.localStore ∧
      second.1.1.globalVectorClock = e₁.globalVectorClock ∧
      second.2.localStore = srv₁.localStore :=
  repeated_sync_quiescent _ _ _ _ (by decide +kernel) (by decide +kernel) (by decide +kernel)

end Engine
end Dhava
