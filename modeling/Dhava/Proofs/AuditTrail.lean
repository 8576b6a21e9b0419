import Dhava.Proofs.Request
import Dhava.Proofs.Session
import Dhava.Proofs.Tombstones

/-! Which conflicts are logged. Clocks are compared against live records only, so an
operation that goes over a concurrent tombstone leaves no entry. -/

namespace Dhava

open Foundations

variable {V : Type}

namespace ConflictResolver

/-- The record under the operation's key is live, and its clock is concurrent. -/
def meetsConcurrent (s : LocalStore V) (op : Operation V) : Bool :=
  (s.get op.key).any fun r =>
    (VectorClock.ofDict r.vectorClock).compare (VectorClock.ofDict op.vectorClock).clocks = .concurrent

/-- The audit entry of a conflict. -/
def conflictEntry (self : ConflictResolver) (nodeId : String) (s : LocalStore V) (op : Operation V) :
    AuditEntry :=
  { actionType := "conflict_resolved", nodeId
    details := .conflict (self.resolve (s.get op.key true) op).auditDetail }

/-- The entries for a list of operations: one for each position at which the operation
meets a concurrent live record, in the store that the ones before it have left. -/
def conflictLog (self : ConflictResolver) (nodeId : String) (s : LocalStore V)
    (ops : List (Operation V)) : List AuditEntry :=
  let storeAt (i : Fin ops.length) : LocalStore V := (ops.take i).foldl self.process s
  ((List.finRange ops.length).filter fun i => meetsConcurrent (storeAt i) (ops.get i)).map
    fun i => self.conflictEntry nodeId (storeAt i) (ops.get i)

theorem comparison_concurrent_iff (self : ConflictResolver) (s : LocalStore V) (op : Operation V) :
    (self.resolve (s.get op.key true) op).comparison = some .concurrent ↔
      meetsConcurrent s op = true := by
  unfold meetsConcurrent
  rw [LocalStore.get_false]
  cases h : s.get op.key true with
  | none => simp [resolve, resolveNonExistent]
  | some r =>
    cases hr : r.deleted with
    | true => simp [resolve, resolveNonExistent, hr, Option.filter]
    | false =>
      rw [self.comparison_live hr]
      simp [hr, Option.filter]

/-- The log as what the single steps put out. -/
theorem conflictLog_eq (self : ConflictResolver) (nodeId : String) (s : LocalStore V)
    (ops : List (Operation V)) :
    self.conflictLog nodeId s ops = (outputs self.process (fun s op =>
      if meetsConcurrent s op then [self.conflictEntry nodeId s op] else []) s ops).flatten := by
  rw [outputs_eq_map, flatten_map_ite]
  rfl

theorem conflictLog_cons (self : ConflictResolver) (nodeId : String) (s : LocalStore V)
    (op : Operation V) (rest : List (Operation V)) :
    self.conflictLog nodeId s (op :: rest) =
      (if meetsConcurrent s op then [self.conflictEntry nodeId s op] else []) ++
        self.conflictLog nodeId (self.process s op) rest := by
  rw [conflictLog_eq, conflictLog_eq, outputs, List.flatten_cons]

end ConflictResolver

/-! ### The pull loop -/

theorem Engine.pullLoop_log {e : Engine V} (haudit : e.config.auditEnabled = true)
    {faults : ℕ → Option Fault} {dicts : List (OpDict V)}
    (h : (e.pullLoop faults dicts).raised = none) :
    (e.pullLoop faults dicts).engine.audit =
      e.audit ++ e.conflictResolver.conflictLog e.nodeId e.localStore (Operation.decoded dicts) := by
  induction dicts generalizing e faults with
  | nil => exact (List.append_nil _).symm
  | cons d rest ih =>
    unfold pullLoop at h ⊢
    cases hd : Operation.fromDict d with
    | error exc =>
      rw [hd] at h
      cases h
    | ok op =>
      simp only [hd] at h ⊢
      rcases hp : e.pullOne (faults 0) op with ⟨e', - | exc⟩
      · have hone := e.pullOne_done (faults 0) op (congrArg Prod.snd hp)
        have hid := (pullOne_pulled e (faults 0) op).identity
        rw [hp] at h hone hid
        obtain ⟨hstore, hlog⟩ := hone
        have hconfig : e'.config = e.config := congrArg (fun i => i.2.1) hid
        rw [← hconfig] at haudit
        have hrest := ih haudit h
        rw [nodeId_of_identity hid, resolver_of_identity hid, hstore, hlog] at hrest
        have hentry : e.auditsConcurrent op =
            if ConflictResolver.meetsConcurrent e.localStore op
            then [e.conflictResolver.conflictEntry e.nodeId e.localStore op] else [] := by
          unfold auditsConcurrent
          simp only [← hconfig, haudit, Bool.true_and, decide_eq_true_eq,
            ConflictResolver.comparison_concurrent_iff]
          rfl
        rw [Operation.decoded_cons hd, ConflictResolver.conflictLog_cons, ← hentry, ← List.append_assoc]
        exact hrest
      · rw [hp] at h
        cases h

/-! ### The push loop -/

theorem Server.pushLoop_log {srv : Server V} (haudit : srv.config.auditEnabled = true)
    {faults : ℕ → Option Fault} {dicts : List (OpDict V)}
    (h : (srv.pushLoop faults dicts).raised = none) :
    (srv.pushLoop faults dicts).server.audit = srv.audit ++
      srv.conflictResolver.conflictLog srv.serverNodeId srv.localStore (Operation.decoded dicts) := by
  induction dicts generalizing srv faults with
  | nil => exact (List.append_nil _).symm
  | cons d rest ih =>
    unfold pushLoop at h ⊢
    cases hd : Operation.fromDict d with
    | error exc =>
      rw [hd] at h
      cases h
    | ok op =>
      simp only [hd] at h ⊢
      have hone := srv.pushOne_pushed (faults 0) op
      rcases hp : srv.pushOne (faults 0) op with ⟨srv', - | exc⟩
      · have hlog := srv.pushOne_audit (faults 0) op (congrArg Prod.snd hp)
        rw [hp] at h hone hlog
        have hraises : srv.raisesOn op (faults 0) = false := hone.raised.symm
        have hstore := hone.localStore
        simp only [hraises, Bool.false_eq_true, if_false] at hstore
        have hname : srv'.serverNodeId = srv.serverNodeId := congrArg Prod.fst hone.identity
        have hconfig := config_of_identity hone.identity
        rw [← hconfig] at haudit
        have hrest := ih haudit h
        rw [hname, resolver_of_identity hone.identity, hstore, hlog] at hrest
        have hentry : srv.auditsOn op = ConflictResolver.meetsConcurrent srv.localStore op := by
          unfold auditsOn
          rw [← hconfig, haudit, Bool.and_true, Bool.eq_iff_iff, decide_eq_true_eq,
            ConflictResolver.comparison_concurrent_iff]
        rw [hentry] at hrest
        rw [Operation.decoded_cons hd, ConflictResolver.conflictLog_cons, ← List.append_assoc]
        exact hrest
      · rw [hp] at h
        cases h

theorem Server.handleSyncRequest_log {srv : Server V} (haudit : srv.config.auditEnabled = true)
    {faults : ℕ → Option Fault} {now : Readings} {req : SyncPushRequest V}
    (h : (srv.handleSyncRequest faults now req).2.status = "ok") :
    (srv.handleSyncRequest faults now req).1.audit = srv.audit ++
      srv.conflictResolver.conflictLog srv.serverNodeId srv.localStore (requestOps req) := by
  obtain ⟨dicts, hunpack, hraised, hresult⟩ := srv.answered_of_ok h
  have hops : requestOps req = Operation.decoded dicts := by rw [requestOps, hunpack]
  rw [hresult, hops]
  exact pushLoop_log haudit hraised

/-- With auditing on, both loops append one entry for each operation that meets a live
record with a concurrent clock, and none for any other. -/
theorem conflicts_audited :
    (∀ (e : Engine V) (faults : ℕ → Option Fault) (dicts : List (OpDict V)),
      e.config.auditEnabled = true → (e.pullLoop faults dicts).raised = none →
        (e.pullLoop faults dicts).engine.audit = e.audit ++
          e.conflictResolver.conflictLog e.nodeId e.localStore (e.pullLoop faults dicts).processed) ∧
      ∀ (srv : Server V) (faults : ℕ → Option Fault) (now : Readings) (req : SyncPushRequest V),
        srv.config.auditEnabled = true → (srv.handleSyncRequest faults now req).2.status = "ok" →
          (srv.handleSyncRequest faults now req).1.audit = srv.audit ++
            srv.conflictResolver.conflictLog srv.serverNodeId srv.localStore (Server.requestOps req) := by
  refine ⟨fun e faults dicts haudit hpull => ?_, fun srv faults now req haudit hpush => ?_⟩
  · rw [(Engine.pullLoop_done hpull).processed]
    exact Engine.pullLoop_log haudit hpull
  · exact Server.handleSyncRequest_log haudit hpush

/-- A request with one update of node `b`, made without knowledge of node `a`. -/
def concurrentUpdate : SyncPushRequest ℕ where
  nodeId := "b"
  sessionId := "s"
  operationCount := 1
  senderVectorClock := (∅ : Dict String ℤ).insert "b" 1
  encryptedPayload := .packed [(ConflictResolver.sampleUpdate "b" 5).toDict]
  hashMatches := true

/-- Node `a` and the server each hold the record as `a` has updated it: one entry on either side. -/
theorem conflicts_audited_example :
    let own : LocalCall ℕ :=
      { opType := .update, collection := "incidents", recordId := "r"
        data := (∅ : Dict String ℕ).insert "a" 1, opId := "a", now := 0, enqueuedAt := 0 }
    let e := ((Engine.create "a").call own).1
    let srv := ((Server.create "hq").pushOne none (ConflictResolver.sampleUpdate "a" 0)).1
    let dicts := [(ConflictResolver.sampleUpdate "b" 5).toDict]
    ((e.pullLoop noFaults dicts).engine.audit = e.audit ++
          e.conflictResolver.conflictLog e.nodeId e.localStore (e.pullLoop noFaults dicts).processed ∧
        (e.pullLoop noFaults dicts).engine.audit.length = e.audit.length + 1) ∧
      (srv.handleSyncRequest noFaults 6 concurrentUpdate).1.audit = srv.audit ++
          srv.conflictResolver.conflictLog srv.serverNodeId srv.localStore
            (Server.requestOps concurrentUpdate) ∧
        (srv.handleSyncRequest noFaults 6 concurrentUpdate).1.audit.length = srv.audit.length + 1 := by
  intro own e srv dicts
  refine ⟨⟨?_, by decide +kernel⟩, ?_, by decide +kernel⟩
  · exact conflicts_audited.1 e noFaults dicts (by decide +kernel) (by decide +kernel)
  · exact conflicts_audited.2 srv noFaults 6 concurrentUpdate (by decide +kernel) (by decide +kernel)

/-- The update goes over the tombstone of a concurrent delete, and nothing is logged. -/
theorem tombstone_conflict_not_logged :
    let srv : Server ℕ := (((Server.create "hq" : Server ℕ).pushOne none
      (ConflictResolver.sampleUpdate "a" 0)).1.pushOne none
        (ConflictResolver.sampleDelete "a" 1 ((∅ : Dict String ℤ).insert "a" 2))).1
    let answer := srv.handleSyncRequest noFaults 6 concurrentUpdate
    answer.2.status = "ok" ∧ srv.config.auditEnabled = true ∧
      (srv.localStore.get ("incidents", "r") true).map (fun r =>
        (r.deleted, (VectorClock.ofDict r.vectorClock).compare
          (VectorClock.ofDict (ConflictResolver.sampleUpdate "b" 5).vectorClock).clocks)) =
            some (true, .concurrent) ∧
      (answer.1.localStore.get ("incidents", "r")).map Record.data =
        some (ConflictResolver.sampleUpdate "b" 5).payload ∧
      answer.1.audit = srv.audit := by
  decide +kernel

end Dhava
