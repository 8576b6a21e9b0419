import Dhava.Proofs.History
import Dhava.Proofs.Request
import Dhava.Spec.World

/-! One honest exchange. Either the server refuses the node and nothing is processed on
either side, or it processes the batch and the node processes the delta. -/

namespace Dhava

open Foundations

variable {V : Type}

namespace Server

/-- What an answered request with the operations `ops` does. -/
structure Answered (srv : Server V) (ops : List (Operation V)) (now : Readings)
    (req : SyncPushRequest V) (srv' : Server V) (resp : SyncPullResponse V) : Prop where
  admitted : srv.refuses req.nodeId = false
  localStore : srv'.localStore = ops.foldl srv.conflictResolver.process srv.localStore
  resolver : srv'.conflictResolver = srv.conflictResolver
  status : resp.status = "ok"
  acked : resp.ackedOpIds = ops.map Operation.opId
  payload : Engine.unpackResponse resp = .ok ((srv'.getOperationsForPeer now.enqueued
    (VectorClock.ofDict req.senderVectorClock) req.nodeId).map Operation.toDict)

/-- Without faults a well-formed request is refused as a whole or answered. -/
theorem handleSyncRequest_cases (srv : Server V) (now : Readings) (req : SyncPushRequest V)
    (ops : List (Operation V)) (hreq : unpackRequest req = .ok (ops.map Operation.toDict)) :
    ((srv.handleSyncRequest noFaults now req).1 = srv ∧
        (srv.handleSyncRequest noFaults now req).2.status = "error" ∧
        srv.config.nodeRegistrationRequired = true) ∨
      Answered srv ops now req (srv.handleSyncRequest noFaults now req).1
        (srv.handleSyncRequest noFaults now req).2 := by
  rcases srv.handleSyncRequest_ends noFaults now req with
    ⟨error, hresult, hno⟩ | ⟨dicts, hpasses, hunpack, ⟨exc, error, hraised, hresult⟩ | ⟨-, hresult⟩⟩
  · have hreg : srv.refuses req.nodeId = true := by
      by_contra hnot
      exact hno _ (Bool.eq_false_iff.2 hnot) hreq
    rw [hresult]
    exact Or.inl ⟨rfl, rfl, (Bool.and_eq_true_iff.1 hreg).1⟩
  · rw [hreq] at hunpack
    obtain rfl := Except.ok.inj hunpack
    rw [(srv.pushLoop_noFaults ops).1] at hraised
    cases hraised
  · have hok : (srv.handleSyncRequest noFaults now req).2.status = "ok" := by
      rw [hresult]
      rfl
    have hanswer := srv.handleSyncRequest_ok noFaults now req hok
    have hops : requestOps req = ops := by
      rw [requestOps, hreq]
      exact Operation.decoded_map_toDict ops
    refine Or.inr ⟨hpasses, ?_, resolver_of_identity hanswer.identity, hok, ?_,
      hanswer.payload⟩
    · rw [hanswer.localStore, hops]
    · rw [hanswer.acked, hops]

end Server

namespace Node

variable (node : Node V) (sessionId : String) (bandwidthBps : ℤ) (now : ℚ) {resp : SyncPullResponse V}

/-- A session that gets the status `error` marks its batch failed and does nothing else. -/
theorem sync_refused (h : resp.status = "error") :
    let node' := node.sync sessionId (some bandwidthBps) now noFaults (.response resp)
    node'.engine.localStore = node.engine.localStore ∧ node'.processed = node.processed ∧
      ∃ error, node'.engine.outbox.rows = (node.engine.outbox.markFailed
        ((node.engine.pendingBatch bandwidthBps).map Operation.opId) error).rows := by
  intro node'
  have hacc : (Exchange.response resp).accepted = none := if_pos h
  have hmarks : (Exchange.response resp).marksFailed = true := decide_eq_true h
  have hpulled : node.engine.pulled sessionId (some bandwidthBps) now noFaults (.response resp) =
      ⟨node.engine, {}, [], none⟩ := by
    unfold Engine.pulled
    rw [hacc]
  have hsynced :=
    node.engine.syncNow_synced sessionId (some bandwidthBps) now noFaults (.response resp)
  refine ⟨hsynced.localStore.trans (by rw [hpulled]), ?_, ?_⟩
  · change node.processed ++ (node.engine.pulled sessionId _ now noFaults _).processed = _
    rw [hpulled, List.append_nil]
  · rcases node.engine.rows_syncNow sessionId (some bandwidthBps) now noFaults (.response resp) with
      ⟨bps, error, hbps, -, hr⟩ | ⟨_, _, -, hresp, -⟩ | ⟨hnone | hno, -⟩
    · obtain rfl := Option.some.inj hbps
      exact ⟨error, hr⟩
    · rw [hacc] at hresp
      cases hresp
    · cases hnone
    · rw [hno.1] at hmarks
      cases hmarks

/-- A session that gets another status processes the delta and marks what is acknowledged. -/
theorem sync_answered {delta : List (Operation V)} (hok : resp.status ≠ "error")
    (hpayload : Engine.unpackResponse resp = .ok (delta.map Operation.toDict)) :
    let node' := node.sync sessionId (some bandwidthBps) now noFaults (.response resp)
    node'.engine.localStore =
        delta.foldl node.engine.conflictResolver.process node.engine.localStore ∧
      node'.processed = node.processed ++ delta ∧
      node'.engine.outbox.rows = (node.engine.outbox.markSynced resp.ackedOpIds now).rows := by
  intro node'
  have hacc : (Exchange.response resp).accepted = some resp := if_neg hok
  set e : Engine V := { (node.engine.beginSync sessionId bandwidthBps).1 with
    outbox := (node.engine.beginSync sessionId bandwidthBps).1.outbox.markSynced
      resp.ackedOpIds now } with he
  have hpulled : node.engine.pulled sessionId (some bandwidthBps) now noFaults (.response resp) =
      e.pullLoop noFaults (delta.map Operation.toDict) := by
    unfold Engine.pulled
    simp only [hacc, hpayload, he]
  have hall := e.pullLoop_noFaults delta
  rw [← hpulled] at hall
  have hsynced :=
    node.engine.syncNow_synced sessionId (some bandwidthBps) now noFaults (.response resp)
  refine ⟨hsynced.localStore.trans hall.localStore, congrArg (node.processed ++ ·) hall.processed, ?_⟩
  rcases node.engine.rows_syncNow sessionId (some bandwidthBps) now noFaults (.response resp) with
    ⟨_, _, -, hmarks, -⟩ | ⟨_, resp', -, hresp, hr⟩ | ⟨hnone | hno, -⟩
  · exact absurd (of_decide_eq_true hmarks) hok
  · rw [hacc] at hresp
    obtain rfl := Option.some.inj hresp
    exact hr
  · cases hnone
  · rw [hacc] at hno
    cases hno.2

end Node

namespace World

theorem call_self (w : World V) (n : String) (c : LocalCall V) :
    (w.step (.call n c)).nodes n = (w.nodes n).call c := Function.update_self ..

theorem call_of_ne (w : World V) {n m : String} (hm : m ≠ n) (c : LocalCall V) :
    (w.step (.call n c)).nodes m = w.nodes m := Function.update_of_ne hm ..

theorem sync_none_self (w : World V) (n sessionId : String) (now : ℚ) (serverNow : Readings) :
    (w.sync n sessionId none now serverNow).nodes n =
      (w.nodes n).sync sessionId none now noFaults (.failed "No transport") :=
  Function.update_self ..

theorem sync_some_self (w : World V) (n sessionId : String) (bandwidthBps : ℤ) (now : ℚ)
    (serverNow : Readings) :
    (w.sync n sessionId (some bandwidthBps) now serverNow).nodes n =
      (w.nodes n).sync sessionId (some bandwidthBps) now noFaults
        (.response (w.server.handleSyncRequest noFaults serverNow
          (w.request n sessionId bandwidthBps)).2) :=
  Function.update_self ..

theorem sync_of_ne (w : World V) {n m : String} (hm : m ≠ n) (sessionId : String) (link : Option ℤ)
    (now : ℚ) (serverNow : Readings) : (w.sync n sessionId link now serverNow).nodes m = w.nodes m := by
  cases link <;> exact Function.update_of_ne hm ..

/-- A step is a step of one node, and the others stay as they are. -/
theorem nodes_step (w : World V) (ev : WorldEvent V) (m : String) :
    (w.step ev).nodes m = w.nodes m ∨
      ∃ nev, (w.step ev).nodes m = (w.nodes m).step nev ∧ (w.Fresh ev → (w.nodes m).Fresh nev) := by
  cases ev with
  | call n c =>
    by_cases hm : m = n
    · subst hm
      exact Or.inr ⟨.call c, w.call_self m c, fun h => h⟩
    · exact Or.inl (w.call_of_ne hm c)
  | sync n sessionId link now serverNow =>
    by_cases hm : m = n
    · subst hm
      cases link with
      | none =>
        exact Or.inr ⟨.sync sessionId none now noFaults _, w.sync_none_self m sessionId now serverNow,
          fun _ => trivial⟩
      | some bandwidthBps =>
        exact Or.inr ⟨.sync sessionId (some bandwidthBps) now noFaults _,
          w.sync_some_self m sessionId bandwidthBps now serverNow, fun _ => trivial⟩
    · exact Or.inl (w.sync_of_ne hm sessionId link now serverNow)
  | register now nodeId => exact Or.inl rfl

/-- An exchange in which the server answered. -/
structure Synced (w w' : World V) (n : String) (bandwidthBps : ℤ) (now : ℚ) (serverNow : Readings) :
    Prop where
  admitted : w.server.refuses (w.nodes n).engine.nodeId = false
  server : w'.server.localStore =
    ((w.nodes n).engine.pendingBatch bandwidthBps).foldl w.server.conflictResolver.process
      w.server.localStore
  localStore : (w'.nodes n).engine.localStore =
    (w'.server.getOperationsForPeer serverNow.enqueued (w.nodes n).engine.globalVectorClock
      (w.nodes n).engine.nodeId).foldl (w.nodes n).engine.conflictResolver.process
      (w.nodes n).engine.localStore
  processed : (w'.nodes n).processed = (w.nodes n).processed ++
    w'.server.getOperationsForPeer serverNow.enqueued (w.nodes n).engine.globalVectorClock
      (w.nodes n).engine.nodeId
  rows : (w'.nodes n).engine.outbox.rows = ((w.nodes n).engine.outbox.markSynced
    (((w.nodes n).engine.pendingBatch bandwidthBps).map Operation.opId) now).rows

/-- An exchange in which the server refused the node. -/
structure Refused (w w' : World V) (n : String) (bandwidthBps : ℤ) : Prop where
  server : w'.server = w.server
  required : w.server.config.nodeRegistrationRequired = true
  localStore : (w'.nodes n).engine.localStore = (w.nodes n).engine.localStore
  processed : (w'.nodes n).processed = (w.nodes n).processed
  rows : ∃ error, (w'.nodes n).engine.outbox.rows = ((w.nodes n).engine.outbox.markFailed
    (((w.nodes n).engine.pendingBatch bandwidthBps).map Operation.opId) error).rows

theorem sync_cases (w : World V) (n sessionId : String) (bandwidthBps : ℤ) (now : ℚ)
    (serverNow : Readings) :
    Refused w (w.sync n sessionId (some bandwidthBps) now serverNow) n bandwidthBps ∨
      Synced w (w.sync n sessionId (some bandwidthBps) now serverNow) n bandwidthBps now serverNow := by
  set req := w.request n sessionId bandwidthBps
  set answer := w.server.handleSyncRequest noFaults serverNow req
  have hnode : (w.sync n sessionId (some bandwidthBps) now serverNow).nodes n =
      (w.nodes n).sync sessionId (some bandwidthBps) now noFaults (.response answer.2) :=
    w.sync_some_self ..
  have hsrv : (w.sync n sessionId (some bandwidthBps) now serverNow).server = answer.1 := rfl
  rcases w.server.handleSyncRequest_cases serverNow req ((w.nodes n).engine.pendingBatch bandwidthBps)
    rfl with ⟨hsame, hstatus, hrequired⟩ | hans
  · obtain ⟨hstore, hprocessed, hrows⟩ := (w.nodes n).sync_refused sessionId bandwidthBps now hstatus
    rw [← hnode] at hstore hprocessed hrows
    exact Or.inl ⟨hsrv.trans hsame, hrequired, hstore, hprocessed, hrows⟩
  · have hok : answer.2.status ≠ "error" := by
      rw [hans.status]
      decide
    have hvc : VectorClock.ofDict req.senderVectorClock = (w.nodes n).engine.globalVectorClock :=
      VectorClock.ofDict_clocks _
    have hpayload := hans.payload
    rw [hvc] at hpayload
    obtain ⟨hstore, hprocessed, hrows⟩ :=
      (w.nodes n).sync_answered sessionId bandwidthBps now hok hpayload
    rw [← hnode] at hstore hprocessed hrows
    rw [hans.acked] at hrows
    exact Or.inr ⟨hans.admitted, hans.localStore, hstore, hprocessed, hrows⟩

/-- A sync issues nothing. -/
theorem issued_sync (w : World V) (n sessionId : String) (link : Option ℤ) (now : ℚ)
    (serverNow : Readings) (m : String) :
    ((w.sync n sessionId link now serverNow).nodes m).issued = (w.nodes m).issued := by
  by_cases hm : m = n
  · subst hm
    cases link with
    | none => rw [w.sync_none_self]; rfl
    | some bandwidthBps => rw [w.sync_some_self]; rfl
  · rw [w.sync_of_ne hm]

theorem issued_call {w : World V} {n : String} {c : LocalCall V} (hrows : (w.nodes n).RowsIssued)
    (hc : w.Fresh (.call n c)) (m : String) :
    ((w.step (.call n c)).nodes m).issued =
      (w.nodes m).issued ++ if m = n then [(w.nodes n).issue c] else [] := by
  by_cases hm : m = n
  · subst hm
    rw [w.call_self, if_pos rfl, (Node.call_fresh hrows hc).1]
  · rw [w.call_of_ne hm, if_neg hm, List.append_nil]

/-- A call of node `a` on one record, for fixed inputs. -/
def sampleWrite (opType : OperationType) (field : String) (priority : Priority) (opId : String)
    (now : ℚ) : WorldEvent ℕ :=
  .call "a"
    { opType, collection := "incidents", recordId := "r", data := (∅ : Dict String ℕ).insert field 1
      priority, opId, now, enqueuedAt := now }

end World
end Dhava
