import Dhava.Proofs.LwwOrder
import Dhava.Proofs.PullDelta
import Dhava.Proofs.Request
import Dhava.Proofs.Session

/-! One session over a concurrent edit. The server resolves the push with its own tolerance,
the engine resolves the snapshot it pulls with the configured one: between the two lie the
timestamps that both sides decide for themselves. -/

namespace Dhava

open Foundations

theorem filter_eq_singleton {α : Type*} {l : List α} {p : α → Bool} {a : α} (hnd : l.Nodup)
    (ha : a ∈ l) (hp : p a = true) (huniq : ∀ x ∈ l, p x = true → x = a) : l.filter p = [a] := by
  refine List.perm_singleton.1 ((List.perm_ext_iff_of_nodup (hnd.filter p) (List.nodup_singleton a)).2
    fun x => ?_)
  rw [List.mem_filter, List.mem_singleton]
  constructor
  · intro h
    exact huniq x h.1 h.2
  · intro h
    rw [h]
    exact ⟨ha, hp⟩

variable {V : Type}

/-- The part of a row that a session has to reconcile. -/
def Record.shown (r : Record V) : Dict String V × Dict String ℤ := (r.data, r.vectorClock)

/-- A record both sides have edited: the engine's row is its own update `u`, the only pending
operation on the record, which is in the batch; the server's row is new to the engine. -/
structure Contested (e : Engine V) (srv : Server V) (bandwidthBps : ℤ) (u : Operation V)
    (remote : Record V) : Prop where
  update : u.opType = .update
  own : u.nodeId = e.nodeId
  localRow : ∃ existing, e.localStore.get u.key true = some (LocalStore.written existing u)
  sent : u ∈ e.pendingBatch bandwidthBps
  only : ∀ op ∈ e.outbox.rows, op.syncState = .pending → op.key = u.key → op = u
  remoteRow : srv.localStore.get u.key = some remote
  foreign : remote.lastModifiedBy ≠ e.nodeId
  concurrent : (VectorClock.ofDict u.vectorClock).compare
    (VectorClock.ofDict remote.vectorClock).clocks = .concurrent
  uncovered : ¬ VectorClock.ofDict remote.vectorClock ≤ e.globalVectorClock

/-- The gaps at which both sides keep their own version: the engine's is later by more than
its tolerance and at most a second, with the smaller node id, or the server's by more than
a second and at most the engine's tolerance, from the smaller one. Each side adds as it does. -/
def KeepsBoth (plus serverPlus : RoundedSum) (tolerance : ℚ) (u : Operation V) (remote : Record V) :
    Prop :=
  (u.nodeId < remote.lastModifiedBy ∧ plus.add remote.lastModified tolerance < u.timestamp ∧
      u.timestamp ≤ serverPlus.add remote.lastModified 1) ∨
    (remote.lastModifiedBy < u.nodeId ∧ serverPlus.add u.timestamp 1 < remote.lastModified ∧
      remote.lastModified ≤ plus.add u.timestamp tolerance)

namespace Server

/-! ### The delta, one record at a time -/

theorem mem_rows_of_deltaRows {srv : Server V} {peerVc : VectorClock} {peer : String} {r : Record V}
    (h : r ∈ srv.deltaRows peerVc peer) : srv.localStore.get r.key true = some r := by
  have hrow := ((srv.mem_deltaRows _ _ _).1 h).2.2
  exact (srv.localStore.mem_rows_iff r).1
    ((LocalStore.mem_rowsOf _ _ _).1 (List.mem_of_mem_take hrow)).1

/-- The delta carries one operation on a record whose row it is made from. -/
theorem delta_filter_of_mem {srv : Server V} {peerVc : VectorClock} {peer : String} {r : Record V}
    (now : ℚ) (h : r ∈ srv.deltaRows peerVc peer) :
    (srv.getOperationsForPeer now peerVc peer).filter (·.key = r.key) = [snapshotOp now r] := by
  have honly : (srv.deltaRows peerVc peer).filter (fun q => (snapshotOp now q).key = r.key) = [r] := by
    refine filter_eq_singleton (srv.nodup_deltaRows _ _) h (decide_eq_true rfl) fun q hq hk => ?_
    have hkey : q.key = r.key := of_decide_eq_true hk
    have hget := mem_rows_of_deltaRows hq
    rw [hkey, mem_rows_of_deltaRows h] at hget
    exact (Option.some.inj hget).symm
  rw [getOperationsForPeer_eq, List.filter_map]
  exact congrArg (List.map (snapshotOp now)) honly

/-- It carries none where the row under the key is not new to the peer. -/
theorem delta_filter_of_notMem {srv : Server V} {peerVc : VectorClock} {peer : String} {key : Key}
    (now : ℚ) (h : ∀ r, srv.localStore.get key true = some r → newForPeer peerVc peer r = false) :
    (srv.getOperationsForPeer now peerVc peer).filter (·.key = key) = [] := by
  rw [getOperationsForPeer_eq, List.filter_map, List.map_eq_nil_iff, List.filter_eq_nil_iff]
  intro q hq hk
  have hkey : q.key = key := of_decide_eq_true hk
  have hnew := ((srv.mem_deltaRows _ _ _).1 hq).1
  rw [h q (hkey ▸ mem_rows_of_deltaRows hq)] at hnew
  cases hnew

end Server

namespace Contested

variable {e : Engine V} {srv : Server V} {bandwidthBps : ℤ} {u : Operation V} {remote : Record V}

/-- The push resolves the batch's only operation on the record. -/
theorem pushed (h : Contested e srv bandwidthBps u remote) :
    ((e.pendingBatch bandwidthBps).foldl srv.conflictResolver.process srv.localStore).get u.key true =
      srv.conflictResolver.settle (some remote) u := by
  have honly : (e.pendingBatch bandwidthBps).filter (·.key = u.key) = [u] := by
    refine filter_eq_singleton (OutboxQueue.nodup_getPending _ _ _ _ _) h.sent (by simp)
      fun op hop hk => ?_
    obtain ⟨hrow, hsel⟩ := OutboxQueue.mem_getPending hop
    exact h.only op hrow (OutboxQueue.pending_of_selects hsel) (of_decide_eq_true hk)
  have hrow := ((srv.localStore.get_eq_some_iff _ _).1 h.remoteRow).1
  rw [ConflictResolver.get_foldl_process_filter, honly, hrow]
  rfl

/-- The server takes the update exactly if it wins last write wins there. -/
theorem accepts_push (h : Contested e srv bandwidthBps u remote) :
    srv.conflictResolver.accepts (some remote) u = true ↔ srv.conflictResolver.WinsLww u remote := by
  have hlive := ((srv.localStore.get_eq_some_iff _ _).1 h.remoteRow).2
  have hconc := VectorClock.compare_concurrent.1 h.concurrent
  exact srv.conflictResolver.accepts_concurrent hlive
    (VectorClock.compare_concurrent.2 ⟨hconc.2, hconc.1⟩)

/-- The engine takes the snapshot of the server's row exactly if that wins there. -/
theorem accepts_pull (h : Contested e srv bandwidthBps u remote) (existing : Option (Record V))
    (now : ℚ) :
    e.conflictResolver.accepts (some (LocalStore.written existing u)) (Server.snapshotOp now remote) =
        true ↔
      e.conflictResolver.WinsLww (Server.snapshotOp now remote) (LocalStore.written existing u) :=
  e.conflictResolver.accepts_concurrent (by simp [h.update]) h.concurrent

/-- The update and the server's row are never shown alike: their clocks differ. -/
theorem shown_ne (h : Contested e srv bandwidthBps u remote) (existing : Option (Record V)) :
    (LocalStore.written existing u).shown ≠ remote.shown := by
  intro heq
  have hvc : u.vectorClock = remote.vectorClock := congrArg Prod.snd heq
  have hconc := (VectorClock.compare_concurrent.1 h.concurrent).1
  rw [hvc] at hconc
  exact hconc le_rfl

end Contested

/-- One of the two sides gives way exactly outside of the gaps. -/
theorem wins_either_iff {self peer : ConflictResolver} {u : Operation V} {remote : Record V}
    (hself : self.clockSkewTolerance = 1) (hpeer : 0 ≤ peer.clockSkewTolerance)
    (hids : u.nodeId ≠ remote.lastModifiedBy) (existing : Option (Record V)) (now : ℚ) :
    (self.WinsLww u remote ∨
        peer.WinsLww (Server.snapshotOp now remote) (LocalStore.written existing u)) ↔
      ¬ KeepsBoth peer.plus self.plus peer.clockSkewTolerance u remote := by
  unfold ConflictResolver.WinsLww KeepsBoth
  simp only [Server.snapshotOp, LocalStore.lastModified_written, LocalStore.lastModifiedBy_written,
    hself, gt_iff_lt, not_lt]
  rcases lt_or_gt_of_ne hids with hlt | hgt
  · simp only [hlt, not_lt_of_gt hlt, and_false, or_false, and_true, true_and, false_and, not_and,
      not_le]
    constructor
    · rintro (h | h | h) hgap
      · exact h
      · exact absurd h (peer.plus.not_add_lt hpeer hpeer hgap)
      · exact absurd hgap h.not_gt
    · intro h
      by_cases hgap : peer.plus.add remote.lastModified peer.clockSkewTolerance < u.timestamp
      · exact Or.inl (h hgap)
      · exact Or.inr (Or.inr (not_lt.1 hgap))
  · simp only [hgt, not_lt_of_gt hgt, and_false, or_false, and_true, true_and, false_and, false_or,
      not_and, not_le]
    constructor
    · rintro ((h | h) | h) hgap
      · exact absurd hgap (self.plus.not_add_lt zero_le_one zero_le_one h)
      · exact absurd hgap h.not_gt
      · exact h
    · intro h
      by_cases hgap : self.plus.add u.timestamp 1 < remote.lastModified
      · exact Or.inr (h hgap)
      · exact Or.inl (Or.inr (not_lt.1 hgap))

section Session

variable {e : Engine V} {srv : Server V} {bandwidthBps : ℤ} {u : Operation V} {remote : Record V}

/-- Where the server takes the update, its row is the engine's, and is not sent back. -/
theorem Contested.agree_of_pushed (h : Contested e srv bandwidthBps u remote) {srv' : Server V}
    (now : ℚ) {existing : Option (Record V)}
    (hlocal : e.localStore.get u.key true = some (LocalStore.written existing u))
    (hrow : srv'.localStore.get u.key true = some (LocalStore.written (some remote) u)) :
    (((srv'.getOperationsForPeer now e.globalVectorClock e.nodeId).foldl e.conflictResolver.process
      e.localStore).get u.key true).map Record.shown =
        (srv'.localStore.get u.key true).map Record.shown := by
  have hskip :
      (srv'.getOperationsForPeer now e.globalVectorClock e.nodeId).filter (·.key = u.key) = [] := by
    apply Server.delta_filter_of_notMem now
    intro r hr
    rw [hrow] at hr
    obtain rfl := Option.some.inj hr
    simp [Server.newForPeer, h.own]
  rw [ConflictResolver.get_foldl_process_filter, hskip, List.foldl_nil, hlocal, hrow]
  simp [Record.shown, LocalStore.writtenData, h.update]

/-- Where the server keeps its row, the engine pulls it, and shows it exactly if it wins there. -/
theorem Contested.agree_iff_of_kept (h : Contested e srv bandwidthBps u remote) {srv' : Server V}
    (now : ℚ) {existing : Option (Record V)}
    (hlocal : e.localStore.get u.key true = some (LocalStore.written existing u))
    (hrow : srv'.localStore.get u.key true = some remote)
    (hwindow : remote ∈ (srv'.localStore.rowsOf u.collection).take 500) :
    (((srv'.getOperationsForPeer now e.globalVectorClock e.nodeId).foldl e.conflictResolver.process
        e.localStore).get u.key true).map Record.shown =
          (srv'.localStore.get u.key true).map Record.shown ↔
      e.conflictResolver.WinsLww (Server.snapshotOp now remote) (LocalStore.written existing u) := by
  have hlive := ((srv.localStore.get_eq_some_iff _ _).1 h.remoteRow).2
  have hkey : remote.key = u.key := by
    rw [LocalStore.get_true, Keyed.find?_eq_some] at hrow
    exact hrow.2
  have hcoll : remote.collection = u.collection := congrArg Prod.fst hkey
  have hmem : remote ∈ srv'.deltaRows e.globalVectorClock e.nodeId := by
    refine (srv'.mem_deltaRows _ _ _).2 ⟨?_, ⟨remote, ?_, rfl, hlive⟩, hcoll ▸ hwindow⟩
    · exact Server.newForPeer_iff.2 ⟨h.foreign, h.uncovered⟩
    · rw [srv'.localStore.mem_rows_iff, hkey]
      exact hrow
  have honly := Server.delta_filter_of_mem now hmem
  rw [hkey] at honly
  rw [ConflictResolver.get_foldl_process_filter, honly, hlocal, hrow, ← h.accepts_pull existing now,
    List.foldl_cons, List.foldl_nil, ConflictResolver.settle]
  split_ifs with hacc
  · refine iff_of_true ?_ hacc
    simp [Record.shown, LocalStore.writtenData, Server.snapshotOp, hlive]
  · exact iff_of_false (fun hsame => h.shown_ne existing (Option.some.inj hsame)) hacc

end Session

/-- After a completed session over a contested record the two sides show the same data and
the same clock exactly if the timestamps do not fall between the two tolerances. -/
theorem session_reconciles_iff (nodeId serverNodeId : String) (config : EngineConfig)
    (serverConfig : ServerConfig) (htol : 0 ≤ config.clockSkewToleranceSeconds)
    (e : Engine V) (he : e.identity = (Engine.create (V := V) nodeId config).identity)
    (srv : Server V) (hs : srv.identity = (Server.create (V := V) serverNodeId serverConfig).identity)
    (sessionId : String) (bandwidthBps : ℤ) (now : ℚ) (serverNow : Readings)
    (faults serverFaults : ℕ → Option Fault)
    (u : Operation V) (remote : Record V) (h : Contested e srv bandwidthBps u remote)
    (hwindow : ∀ r, (srv.handleSyncRequest serverFaults serverNow
          (e.beginSync sessionId bandwidthBps).2.2).1.localStore.get u.key true = some r →
        r ∈ ((srv.handleSyncRequest serverFaults serverNow
          (e.beginSync sessionId bandwidthBps).2.2).1.localStore.rowsOf u.collection).take 500)
    (hdone : (e.syncNow sessionId (some bandwidthBps) now faults fun req =>
      .response (srv.handleSyncRequest serverFaults serverNow req).2).2.status = "completed") :
    ((e.syncNow sessionId (some bandwidthBps) now faults fun req =>
          .response (srv.handleSyncRequest serverFaults serverNow req).2).1.localStore.get
            u.key true).map Record.shown =
        ((srv.handleSyncRequest serverFaults serverNow
          (e.beginSync sessionId bandwidthBps).2.2).1.localStore.get u.key true).map Record.shown ↔
      ¬ KeepsBoth config.platform.plus serverConfig.platform.plus config.clockSkewToleranceSeconds u
        remote := by
  obtain ⟨existing, hlocal⟩ := h.localRow
  obtain ⟨hok, dicts, hunpack, hcompleted⟩ :=
    e.syncNow_completed sessionId now faults bandwidthBps _ hdone
  have hstore := hcompleted.localStore
  have hanswer := srv.handleSyncRequest_ok serverFaults serverNow
    (e.beginSync sessionId bandwidthBps).2.2 ((srv.handleSyncRequest_status _ _ _).resolve_right hok)
  have hbatch : Server.requestOps (e.beginSync sessionId bandwidthBps).2.2 =
      e.pendingBatch bandwidthBps := Operation.decoded_map_toDict _
  have hsender : VectorClock.ofDict (e.beginSync sessionId bandwidthBps).2.2.senderVectorClock =
      e.globalVectorClock := VectorClock.ofDict_clocks _
  have hrow := h.pushed
  rw [← hbatch, ← hanswer.localStore] at hrow
  have hpayload := hunpack.symm.trans hanswer.payload
  rw [hsender] at hpayload
  rw [Except.ok.inj hpayload, Operation.decoded_map_toDict] at hstore
  have hresolver : srv.conflictResolver.clockSkewTolerance = 1 :=
    congrArg ConflictResolver.clockSkewTolerance (Server.resolver_of_identity hs)
  have htolerance : e.conflictResolver.clockSkewTolerance = config.clockSkewToleranceSeconds :=
    congrArg ConflictResolver.clockSkewTolerance (Engine.resolver_of_identity he)
  have hserverPlus : srv.conflictResolver.plus = serverConfig.platform.plus :=
    congrArg ConflictResolver.plus (Server.resolver_of_identity hs)
  have hplus : e.conflictResolver.plus = config.platform.plus :=
    congrArg ConflictResolver.plus (Engine.resolver_of_identity he)
  have hids : u.nodeId ≠ remote.lastModifiedBy := fun hid => h.foreign (hid ▸ h.own)
  have hengine : (e.syncNow sessionId (some bandwidthBps) now faults fun req =>
      .response (srv.handleSyncRequest serverFaults serverNow req).2).1.localStore = _ := hstore
  rw [← htolerance] at htol ⊢
  rw [← hserverPlus, ← hplus]
  rw [hengine, ← wins_either_iff hresolver htol hids existing serverNow.enqueued]
  have hsettle : srv.conflictResolver.settle (some remote) u =
      if srv.conflictResolver.accepts (some remote) u
      then some (LocalStore.written (some remote) u) else some remote := rfl
  rw [hsettle] at hrow
  by_cases hwins : srv.conflictResolver.WinsLww u remote
  · rw [if_pos (h.accepts_push.2 hwins)] at hrow
    exact iff_of_true (h.agree_of_pushed serverNow.enqueued hlocal hrow) (Or.inl hwins)
  · rw [if_neg fun hacc => hwins (h.accepts_push.1 hacc)] at hrow
    rw [or_iff_right hwins]
    exact h.agree_iff_of_kept serverNow.enqueued hlocal hrow (hwindow remote hrow)

/-- Node `z` has updated a record offline. -/
def sampleEngine (tolerance : ℚ) : Engine ℕ :=
  ((Engine.create "z" { clockSkewToleranceSeconds := tolerance }).call
    { opType := .update, collection := "incidents", recordId := "r"
      data := (∅ : Dict String ℕ).insert "z" 1, opId := "1", now := 0, enqueuedAt := 0 }).1

def sampleUpdateZ (tolerance : ℚ) : Operation ℕ :=
  ((Engine.create "z" { clockSkewToleranceSeconds := tolerance }).stamp
    { opType := .update, collection := "incidents", recordId := "r"
      data := (∅ : Dict String ℕ).insert "z" 1, opId := "1", now := 0, enqueuedAt := 0 }).2

/-- The server has taken an update of the record that node `b` made five seconds later. -/
def sampleServer : Server ℕ :=
  ((Server.create "hq").handleSyncRequest noFaults 6
    { nodeId := "b", sessionId := "s", operationCount := 1
      senderVectorClock := (∅ : Dict String ℤ).insert "b" 1
      encryptedPayload := .packed [(ConflictResolver.sampleUpdate "b" 5).toDict]
      hashMatches := true }).1

def sampleRemote : Record ℕ := LocalStore.written none (ConflictResolver.sampleUpdate "b" 5)

theorem sample_contested {tolerance : ℚ} (h : tolerance = 1 ∨ tolerance = 10) :
    Contested (sampleEngine tolerance) sampleServer 128001 (sampleUpdateZ tolerance) sampleRemote where
  update := rfl
  own := rfl
  localRow := ⟨none, by rcases h with rfl | rfl <;> decide +kernel⟩
  sent := by rcases h with rfl | rfl <;> decide +kernel
  only := by rcases h with rfl | rfl <;> decide +kernel
  remoteRow := by rcases h with rfl | rfl <;> decide +kernel
  foreign := by rcases h with rfl | rfl <;> decide +kernel
  concurrent := by rcases h with rfl | rfl <;> decide +kernel
  uncovered := by rcases h with rfl | rfl <;> decide +kernel

theorem session_reconciles_example :
    let e := sampleEngine 1
    let session := e.syncNow "s" (some 128001) 7 noFaults fun req =>
      .response (sampleServer.handleSyncRequest noFaults 7 req).2
    let answer := sampleServer.handleSyncRequest noFaults 7 (e.beginSync "s" 128001).2.2
    (session.1.localStore.get ("incidents", "r") true).map Record.shown =
        (answer.1.localStore.get ("incidents", "r") true).map Record.shown ↔
      ¬ KeepsBoth Binary64.sum Binary64.sum 1 (sampleUpdateZ 1) sampleRemote := by
  refine session_reconciles_iff "z" "hq" {} {} (by norm_num) (sampleEngine 1) rfl sampleServer rfl
    "s" 128001 7 7 noFaults noFaults (sampleUpdateZ 1) sampleRemote (sample_contested (Or.inl rfl))
    (fun r hr => ?_) (by decide +kernel)
  have hrow : (sampleServer.handleSyncRequest noFaults 7
      ((sampleEngine 1).beginSync "s" 128001).2.2).1.localStore.get ("incidents", "r") true =
        some sampleRemote := by decide +kernel
  obtain rfl : sampleRemote = r := Option.some.inj (hrow.symm.trans hr)
  decide +kernel

/-- The engine tolerates ten seconds of skew and keeps its own version by node id, the server
tolerates one and keeps the later version. The session is completed. -/
theorem session_leaves_split :
    let e := sampleEngine 10
    let session := e.syncNow "s" (some 128001) 7 noFaults fun req =>
      .response (sampleServer.handleSyncRequest noFaults 7 req).2
    let answer := sampleServer.handleSyncRequest noFaults 7 (e.beginSync "s" 128001).2.2
    Contested e sampleServer 128001 (sampleUpdateZ 10) sampleRemote ∧
      session.2.status = "completed" ∧
      (session.1.localStore.get ("incidents", "r")).map Record.data =
        some ((∅ : Dict String ℕ).insert "z" 1) ∧
      (answer.1.localStore.get ("incidents", "r")).map Record.data =
        some ((∅ : Dict String ℕ).insert "b" 1) ∧
      (∅ : Dict String ℕ).insert "z" 1 ≠ (∅ : Dict String ℕ).insert "b" 1 :=
  ⟨sample_contested (Or.inr rfl), by decide +kernel, by decide +kernel, by decide +kernel,
    by decide +kernel⟩

end Dhava
