import Dhava.Proofs.Registration
import Dhava.Proofs.SendQueue
import Dhava.Proofs.ServerProcess

/-! The books of a device and of the server. Over a whole run what the server counts for a
node are the synced rows of its outbox, and with what waits and what failed these make up
what the node has issued. -/

namespace Dhava

open Foundations

variable {V : Type}

namespace OutboxQueue

/-- `SELECT COUNT(*) ... WHERE sync_state = state`. -/
def inState (q : OutboxQueue V) (state : SyncState) : ℕ :=
  q.rows.countP fun op => op.syncState = state

theorem inState_pending (q : OutboxQueue V) : q.inState .pending = q.pendingCount := by
  simp [inState, pendingCount, List.countP_eq_length_filter]

theorem inState_concat {q q' : OutboxQueue V} {op : Operation V} (h : q'.rows = q.rows ++ [op])
    (state : SyncState) :
    q'.inState state = q.inState state + if op.syncState = state then 1 else 0 := by
  unfold inState
  rw [h, List.countP_append, List.countP_singleton]
  simp

/-- Every row is in one of the four states. -/
theorem length_rows (q : OutboxQueue V) :
    q.rows.length =
      q.inState .pending + q.inState .synced + q.inState .failed + q.inState .conflicted := by
  unfold inState
  induction q.rows with
  | nil => rfl
  | cons op rest ih =>
    simp only [List.countP_cons, List.length_cons, ih]
    cases op.syncState <;> simp <;> omega

/-- The rows that a batch names are its own. -/
theorem countP_batch (e : Engine V) (bandwidthBps : ℤ) :
    e.outbox.rows.countP (fun op =>
      decide (op.opId ∈ (e.pendingBatch bandwidthBps).map Operation.opId)) =
      (e.pendingBatch bandwidthBps).length := by
  have hnodup : e.outbox.rows.Nodup := e.outbox.table.nodup.of_map _
  rw [List.countP_eq_length_filter]
  refine List.Perm.length_eq ((List.perm_ext_iff_of_nodup (hnodup.filter _)
    (nodup_getPending _ _ _ _ _)).2 fun r => ?_)
  rw [List.mem_filter, decide_eq_true_eq]
  constructor
  · rintro ⟨hr, hid⟩
    obtain ⟨sent, hsent, hsame⟩ := List.mem_map.1 hid
    rwa [← eq_of_opId (mem_getPending hsent).1 hr hsame]
  · exact fun hr => ⟨(mem_getPending hr).1, List.mem_map_of_mem hr⟩

/-- A batch that is marked adds its length to the rows of its new state. -/
theorem inState_batch {e : Engine V} {bandwidthBps : ℤ} {f : Operation V → Operation V}
    {hf : ∀ op, (f op).opId = op.opId} {q : OutboxQueue V} {state : SyncState}
    (hstate : ∀ op, (f op).syncState = state) (hleave : state ≠ .pending)
    (h : q.rows = (e.outbox.setWhere ((e.pendingBatch bandwidthBps).map Operation.opId) f hf).rows) :
    q.inState state = e.outbox.inState state + (e.pendingBatch bandwidthBps).length := by
  have hset : ∀ r ∈ e.outbox.table.rows,
      decide (r.opId ∈ (e.pendingBatch bandwidthBps).map Operation.opId) = true →
        decide (r.syncState = state) = false ∧ decide ((f r).syncState = state) = true := by
    intro r hr hid
    rw [Engine.pending_of_sent hr (of_decide_eq_true hid)]
    exact ⟨decide_eq_false hleave.symm, decide_eq_true (hstate r)⟩
  unfold inState
  rw [h, ← countP_batch e bandwidthBps]
  exact Keyed.countP_update hf hset

/-- Of the other states a batch takes none. -/
theorem inState_batch_of_ne {e : Engine V} {bandwidthBps : ℤ} {f : Operation V → Operation V}
    {hf : ∀ op, (f op).opId = op.opId} {q : OutboxQueue V} {state : SyncState}
    (hstate : ∀ op, (f op).syncState ≠ state) (hleave : state ≠ .pending)
    (h : q.rows = (e.outbox.setWhere ((e.pendingBatch bandwidthBps).map Operation.opId) f hf).rows) :
    q.inState state = e.outbox.inState state := by
  unfold inState
  rw [h, rows_setWhere, List.countP_map]
  refine List.countP_congr fun r hr => ?_
  by_cases hid : r.opId ∈ (e.pendingBatch bandwidthBps).map Operation.opId
  · simp only [Function.comp_apply, if_pos hid, Engine.pending_of_sent hr hid, hstate r, hleave.symm]
  · simp only [Function.comp_apply, if_neg hid]

end OutboxQueue

namespace Server

/-- What the registry counts for a node, nothing before it has a row. -/
def totalOpsSynced (srv : Server V) (n : String) : ℤ :=
  ((srv.telemetry n).map Telemetry.totalOpsSynced).getD 0

theorem totalOpsSynced_registerNode (srv : Server V) (now : ℚ) (nodeId n : String) :
    (srv.registerNode now nodeId).totalOpsSynced n = srv.totalOpsSynced n := by
  unfold totalOpsSynced
  rw [telemetry_registerNode]
  split_ifs
  · cases srv.telemetry n <;> rfl
  · rfl

/-- A request adds what it gets acknowledged to the count of its node. -/
theorem totalOpsSynced_request (srv : Server V) (faults : ℕ → Option Fault) (now : Readings)
    (req : SyncPushRequest V) (n : String) :
    (srv.handleSyncRequest faults now req).1.totalOpsSynced n = srv.totalOpsSynced n +
      if req.nodeId = n ∧ (srv.handleSyncRequest faults now req).2.status = "ok" then
        ((srv.handleSyncRequest faults now req).2.ackedOpIds.length : ℤ) else 0 := by
  have hsynced : srv.synced n (.call (.request faults now req)) =
      if req.nodeId = n ∧ (srv.handleSyncRequest faults now req).2.status = "ok" then
        some (now, (srv.handleSyncRequest faults now req).2.ackedOpIds.length) else none := rfl
  have hserver : (srv.step (.call (.request faults now req))).telemetry n =
    (srv.handleSyncRequest faults now req).1.telemetry n := rfl
  unfold totalOpsSynced
  rcases srv.telemetry_request faults now req n with ⟨hnone, hsame⟩ | ⟨ops, hsome, htelemetry⟩
  · rw [hsynced] at hnone
    split_ifs at hnone with hok
    rw [← hserver, hsame, if_neg hok, add_zero]
  · rw [hsynced] at hsome
    split_ifs at hsome with hok
    obtain ⟨-, rfl⟩ := Prod.mk.inj (Option.some.inj hsome)
    rw [← hserver, htelemetry, if_pos hok]
    cases srv.telemetry n <;> rfl

end Server

namespace World

theorem nodeId_step {w : World V} (h : ∀ m, (w.nodes m).engine.nodeId = m) (ev : WorldEvent V)
    (m : String) : ((w.step ev).nodes m).engine.nodeId = m := by
  rcases w.nodes_step ev m with hsame | ⟨nev, hstep, -⟩
  · rw [hsame]
    exact h m
  · rw [hstep]
    exact (Engine.nodeId_of_identity ((w.nodes m).identity_step nev)).trans (h m)

/-- The books of a node and of the server agree. -/
structure Balanced (w : World V) (n : String) : Prop where
  nodeId : ∀ m, (w.nodes m).engine.nodeId = m
  length : (w.nodes n).engine.outbox.rows.length = (w.nodes n).ops.length
  conflicted : (w.nodes n).engine.outbox.inState .conflicted = 0
  total : w.server.totalOpsSynced n = (w.nodes n).engine.outbox.inState .synced
  failed : w.server.config.nodeRegistrationRequired = false →
    (w.nodes n).engine.outbox.inState .failed = 0

theorem balanced_init (serverNodeId : String) (resolver : ConflictResolver)
    (serverConfig : ServerConfig) (config : String → EngineConfig) (n : String) :
    (init serverNodeId resolver serverConfig config : World V).Balanced n :=
  ⟨fun _ => rfl, rfl, rfl, rfl, fun _ => rfl⟩

theorem Balanced.of_idle {w w' : World V} {n : String} (h : w.Balanced n)
    (hnodeId : ∀ m, (w'.nodes m).engine.nodeId = m)
    (hrows : (w'.nodes n).engine.outbox.rows = (w.nodes n).engine.outbox.rows)
    (hops : (w'.nodes n).ops = (w.nodes n).ops)
    (htotal : w'.server.totalOpsSynced n = w.server.totalOpsSynced n)
    (hconfig : w'.server.config = w.server.config) : w'.Balanced n := by
  have hstate : ∀ state, (w'.nodes n).engine.outbox.inState state =
      (w.nodes n).engine.outbox.inState state := fun state => by
    unfold OutboxQueue.inState
    rw [hrows]
  refine ⟨hnodeId, ?_, ?_, ?_, fun hopen => ?_⟩
  · rw [hrows, hops]
    exact h.length
  · rw [hstate]
    exact h.conflicted
  · rw [htotal, hstate]
    exact h.total
  · rw [hstate]
    exact h.failed (hconfig ▸ hopen)

theorem balanced_call {w : World V} {n : String} (h : w.Balanced n) (c : LocalCall V) :
    (w.step (.call n c)).Balanced n := by
  have hself := w.call_self n c
  rcases call_outcome (w.nodes n) c with ⟨-, hissued, hrows⟩ | ⟨-, hissued, hrows⟩
  · have hstate := OutboxQueue.inState_concat hrows
    have hpending : ((w.nodes n).engine.stamped c).syncState = .pending := rfl
    simp only [hpending] at hstate
    refine ⟨nodeId_step h.nodeId _, ?_, ?_, ?_, fun hopen => ?_⟩ <;> rw [hself]
    · unfold Node.ops
      rw [hrows, hissued, List.length_append, List.map_append, List.length_append, h.length]
      rfl
    · rw [hstate]
      exact h.conflicted
    · rw [hstate]
      exact h.total
    · rw [hstate]
      exact h.failed hopen
  · refine h.of_idle (nodeId_step h.nodeId _) ?_ ?_ rfl rfl <;> rw [hself]
    · exact hrows
    · unfold Node.ops
      rw [hissued]

/-- A session over a link: the batch is acknowledged and counted, or refused and failed. -/
theorem balanced_sync {w : World V} {n : String} (h : w.Balanced n) (sessionId : String)
    (bandwidthBps : ℤ) (now : ℚ) (serverNow : Readings) :
    (w.sync n sessionId (some bandwidthBps) now serverNow).Balanced n := by
  set w' := w.sync n sessionId (some bandwidthBps) now serverNow
  set batch := (w.nodes n).engine.pendingBatch bandwidthBps
  set req := w.request n sessionId bandwidthBps
  have hnodeId : ∀ m, (w'.nodes m).engine.nodeId = m :=
    nodeId_step h.nodeId (.sync n sessionId (some bandwidthBps) now serverNow)
  have hops : (w'.nodes n).ops = (w.nodes n).ops := ops_sync sessionId _ now serverNow n
  have hnode : w'.nodes n = (w.nodes n).sync sessionId (some bandwidthBps) now noFaults
      (.response (w.server.handleSyncRequest noFaults serverNow req).2) := w.sync_some_self ..
  have hserver : w'.server = (w.server.handleSyncRequest noFaults serverNow req).1 := rfl
  have hreq : req.nodeId = n := h.nodeId n
  have hmarked : ∀ (f : Operation V → Operation V) (hf : ∀ op, (f op).opId = op.opId),
      (w'.nodes n).engine.outbox.rows =
        ((w.nodes n).engine.outbox.setWhere (batch.map Operation.opId) f hf).rows →
      (w'.nodes n).engine.outbox.rows.length = (w'.nodes n).ops.length := by
    intro f hf hrows
    rw [hrows, OutboxQueue.rows_setWhere, List.length_map, hops, h.length]
  rcases w.server.handleSyncRequest_cases serverNow req batch rfl with
    ⟨hsame, hstatus, hrequired⟩ | hans
  · obtain ⟨-, -, error, hrows⟩ := (w.nodes n).sync_refused sessionId bandwidthBps now hstatus
    rw [← hnode] at hrows
    have hother : ∀ state, state ≠ .failed → state ≠ .pending →
        (w'.nodes n).engine.outbox.inState state = (w.nodes n).engine.outbox.inState state :=
      fun state hne hleave => OutboxQueue.inState_batch_of_ne (fun _ => hne.symm) hleave hrows
    refine ⟨hnodeId, hmarked _ _ hrows, ?_, ?_, fun hopen => ?_⟩
    · rw [hother .conflicted SyncState.noConfusion SyncState.noConfusion]
      exact h.conflicted
    · rw [hother .synced SyncState.noConfusion SyncState.noConfusion, hserver, hsame]
      exact h.total
    · rw [hserver, hsame, hrequired] at hopen
      cases hopen
  · have hok : (w.server.handleSyncRequest noFaults serverNow req).2.status ≠ "error" := by
      rw [hans.status]
      decide
    obtain ⟨-, -, hrows⟩ := (w.nodes n).sync_answered sessionId bandwidthBps now hok hans.payload
    rw [← hnode, hans.acked] at hrows
    have hother : ∀ state, state ≠ .synced → state ≠ .pending →
        (w'.nodes n).engine.outbox.inState state = (w.nodes n).engine.outbox.inState state :=
      fun state hne hleave => OutboxQueue.inState_batch_of_ne (fun _ => hne.symm) hleave hrows
    have hsynced : (w'.nodes n).engine.outbox.inState .synced =
        (w.nodes n).engine.outbox.inState .synced + batch.length :=
      OutboxQueue.inState_batch (fun _ => rfl) SyncState.noConfusion hrows
    refine ⟨hnodeId, hmarked _ _ hrows, ?_, ?_, fun hopen => ?_⟩
    · rw [hother .conflicted SyncState.noConfusion SyncState.noConfusion]
      exact h.conflicted
    · rw [hsynced, hserver, Server.totalOpsSynced_request, if_pos ⟨hreq, hans.status⟩, hans.acked,
        List.length_map, h.total]
      push_cast
      rfl
    · rw [hother .failed SyncState.noConfusion SyncState.noConfusion]
      rw [hserver, Server.config_handleSyncRequest] at hopen
      exact h.failed hopen

theorem balanced_step {w : World V} {n : String} (h : w.Balanced n) (ev : WorldEvent V) :
    (w.step ev).Balanced n := by
  have hnodeId := nodeId_step h.nodeId ev
  cases ev with
  | call m c =>
    by_cases hm : m = n
    · subst hm
      exact balanced_call h c
    · have hother := w.call_of_ne (Ne.symm hm) c
      exact h.of_idle hnodeId (by rw [hother]) (by rw [hother]) rfl rfl
  | register now nodeId =>
    exact h.of_idle hnodeId rfl rfl (w.server.totalOpsSynced_registerNode now nodeId n) rfl
  | sync m sessionId link now serverNow =>
    cases link with
    | none =>
      by_cases hm : m = n
      · subst hm
        refine h.of_idle hnodeId ?_ (ops_sync sessionId none now serverNow m) rfl rfl
        exact congrArg (fun node => node.engine.outbox.rows)
          (w.sync_none_self m sessionId now serverNow)
      · have hother := w.sync_of_ne (Ne.symm hm) sessionId none now serverNow
        exact h.of_idle hnodeId (congrArg (fun node => node.engine.outbox.rows) hother)
          (congrArg Node.ops hother) rfl rfl
    | some bandwidthBps =>
      by_cases hm : m = n
      · subst hm
        exact balanced_sync h sessionId bandwidthBps now serverNow
      · have hother := w.sync_of_ne (Ne.symm hm) sessionId (some bandwidthBps) now serverNow
        have hreq : (w.request m sessionId bandwidthBps).nodeId ≠ n := fun hn =>
          hm ((h.nodeId m).symm.trans hn)
        have htotal := w.server.totalOpsSynced_request noFaults serverNow
          (w.request m sessionId bandwidthBps) n
        rw [if_neg fun hn => hreq hn.1, add_zero] at htotal
        exact h.of_idle hnodeId (congrArg (fun node => node.engine.outbox.rows) hother)
          (congrArg Node.ops hother) htotal (w.server.config_handleSyncRequest ..)

/-- In every run the books agree: what the server counts for a node are the synced rows of its
outbox, and what waits, what a refusal has failed and what is counted make up what the node
has issued. A server that lets everybody in fails nothing. -/
theorem accounts_balance (serverNodeId : String) (resolver : ConflictResolver)
    (serverConfig : ServerConfig) (config : String → EngineConfig) (evs : List (WorldEvent V))
    (n : String) :
    let w : World V := replay step (init serverNodeId resolver serverConfig config) evs
    let outbox := (w.nodes n).engine.outbox
    w.server.totalOpsSynced n = outbox.inState .synced ∧
      (outbox.pendingCount + outbox.inState .failed + w.server.totalOpsSynced n : ℤ) =
        (w.nodes n).ops.length ∧
      (w.server.config.nodeRegistrationRequired = false →
        (outbox.pendingCount + w.server.totalOpsSynced n : ℤ) = (w.nodes n).ops.length) := by
  intro w outbox
  have h : w.Balanced n := replay_invariant (P := fun w : World V => w.Balanced n)
    (balanced_init serverNodeId resolver serverConfig config n) (fun _ ev hw => balanced_step hw ev) evs
  have hsum : outbox.pendingCount + outbox.inState .failed + outbox.inState .synced =
      (w.nodes n).ops.length := by
    have hlength := outbox.length_rows
    have hissued : outbox.rows.length = (w.nodes n).ops.length := h.length
    rw [OutboxQueue.inState_pending, h.conflicted] at hlength
    omega
  rw [h.total]
  refine ⟨rfl, by exact_mod_cast hsum, fun hopen => ?_⟩
  rw [h.failed hopen] at hsum
  exact_mod_cast hsum

end World
end Dhava
