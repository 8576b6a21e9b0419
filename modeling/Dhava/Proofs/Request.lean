import Dhava.Spec.Engine
import Dhava.Spec.Server

/-! What the server does with a request: one iteration of the push loop, the loop as an
induction rule, and which ids a response acknowledges. -/

namespace Dhava

open Foundations

variable {V : Type}

namespace Server

/-- What no request changes. -/
def identity (srv : Server V) : String × ConflictResolver × ServerConfig :=
  (srv.serverNodeId, srv.conflictResolver, srv.config)

theorem resolver_of_identity {srv srv' : Server V} (h : srv'.identity = srv.identity) :
    srv'.conflictResolver = srv.conflictResolver := congrArg (fun i => i.2.1) h

theorem config_of_identity {srv srv' : Server V} (h : srv'.identity = srv.identity) :
    srv'.config = srv.config := congrArg (fun i => i.2.2) h

/-- The iteration of an operation logs a conflict, on the table as it stands. -/
def auditsOn (srv : Server V) (op : Operation V) : Bool :=
  (srv.conflictResolver.resolve (srv.localStore.get op.key true) op).comparison = some .concurrent &&
    srv.config.auditEnabled

/-- The iteration of an operation raises, on the table as it stands. -/
def raisesOn (srv : Server V) (op : Operation V) : Option Fault → Bool
  | none => false
  | some (.read _) => true
  | some (.audit _) => srv.auditsOn op
  | some (.store _) => srv.conflictResolver.accepts (srv.localStore.get op.key true) op

/-- Everything one iteration does, faults included. -/
structure Pushed (srv : Server V) (op : Operation V) (raises : Bool)
    (result : Server V × Option String) : Prop where
  raised : result.2.isSome = raises
  identity : result.1.identity = srv.identity
  syncNodes : result.1.syncNodes = srv.syncNodes
  localStore : result.1.localStore =
    if raises then srv.localStore else srv.conflictResolver.process srv.localStore op

theorem pushOne_pushed (srv : Server V) (fault : Option Fault) (op : Operation V) :
    Pushed srv op (srv.raisesOn op fault) (srv.pushOne fault op) := by
  have hacc : (srv.conflictResolver.resolve (srv.localStore.get op.key true) op).applies =
    srv.conflictResolver.accepts (srv.localStore.get op.key true) op := rfl
  have hstep : srv.conflictResolver.process srv.localStore op =
      if srv.conflictResolver.accepts (srv.localStore.get op.key true) op
      then (srv.localStore.applyOperation op).1 else srv.localStore := rfl
  unfold pushOne raisesOn auditsOn
  simp only [hacc]
  cases h : srv.conflictResolver.accepts (srv.localStore.get op.key true) op <;>
    rw [h] at hstep <;>
    cases (decide ((srv.conflictResolver.resolve (srv.localStore.get op.key true) op).comparison =
        some .concurrent) && srv.config.auditEnabled) <;>
    rcases fault with - | (exc | exc | exc) <;>
    first
      | exact ⟨rfl, rfl, rfl, rfl⟩
      | exact ⟨rfl, rfl, rfl, hstep.symm⟩

/-- An iteration that does not raise logs the conflict it has found. -/
theorem pushOne_audit (srv : Server V) (fault : Option Fault) (op : Operation V) :
    (srv.pushOne fault op).2 = none →
      (srv.pushOne fault op).1.audit = srv.audit ++
        if srv.auditsOn op then
          [{ actionType := "conflict_resolved", nodeId := srv.serverNodeId
             details := .conflict
              (srv.conflictResolver.resolve (srv.localStore.get op.key true) op).auditDetail }]
        else [] := by
  unfold pushOne auditsOn
  simp only
  cases (srv.conflictResolver.resolve (srv.localStore.get op.key true) op).applies <;>
    cases (decide ((srv.conflictResolver.resolve (srv.localStore.get op.key true) op).comparison =
        some .concurrent) && srv.config.auditEnabled) <;>
    rcases fault with - | (exc | exc | exc) <;>
    intro h <;>
    first
      | exact rfl
      | exact (List.append_nil _).symm
      | cases h

/-- The loop processes the operations of the iterations it completes, and changes nothing
else in the tables. -/
theorem pushLoop_frame (srv : Server V) (faults : ℕ → Option Fault) (dicts : List (OpDict V)) :
    (srv.pushLoop faults dicts).server.identity = srv.identity ∧
      (srv.pushLoop faults dicts).server.syncNodes = srv.syncNodes ∧
      (srv.pushLoop faults dicts).server.localStore =
        (srv.pushLoop faults dicts).processed.foldl srv.conflictResolver.process srv.localStore := by
  induction dicts generalizing srv faults with
  | nil => exact ⟨rfl, rfl, rfl⟩
  | cons d rest ih =>
    unfold pushLoop
    cases Operation.fromDict d with
    | error exc => exact ⟨rfl, rfl, rfl⟩
    | ok op =>
      have hone := srv.pushOne_pushed (faults 0) op
      simp only
      rcases hp : srv.pushOne (faults 0) op with ⟨srv', - | exc⟩
      · rw [hp] at hone
        have hraises : srv.raisesOn op (faults 0) = false := hone.raised.symm
        have hstore := hone.localStore
        rw [hraises] at hstore
        obtain ⟨hid, hnodes, hrest⟩ := ih srv' fun i => faults (i + 1)
        rw [hstore, resolver_of_identity hone.identity] at hrest
        exact ⟨hid.trans hone.identity, hnodes.trans hone.syncNodes, hrest⟩
      · rw [hp] at hone
        have hraises : srv.raisesOn op (faults 0) = true := hone.raised.symm
        have hstore := hone.localStore
        rw [hraises] at hstore
        exact ⟨hone.identity, hone.syncNodes, hstore⟩

/-- The operations a request carries, as far as they decode. -/
def requestOps (req : SyncPushRequest V) : List (Operation V) :=
  match unpackRequest req with
  | .error _ => []
  | .ok dicts => Operation.decoded dicts

/-- A loop that does not raise has decoded and processed every dictionary. -/
theorem pushLoop_done (srv : Server V) (faults : ℕ → Option Fault) (dicts : List (OpDict V))
    (h : (srv.pushLoop faults dicts).raised = none) :
    (srv.pushLoop faults dicts).processed = Operation.decoded dicts := by
  induction dicts generalizing srv faults with
  | nil => rfl
  | cons d rest ih =>
    unfold pushLoop at h ⊢
    cases hd : Operation.fromDict d with
    | error exc =>
      rw [hd] at h
      cases h
    | ok op =>
      simp only [hd] at h ⊢
      rcases hp : srv.pushOne (faults 0) op with ⟨srv', - | exc⟩
      · rw [hp] at h
        rw [Operation.decoded_cons hd]
        exact congrArg (op :: ·) (ih srv' _ h)
      · rw [hp] at h
        cases h

/-- Without faults and on encoded operations every operation is processed in turn. -/
theorem pushLoop_noFaults (srv : Server V) (ops : List (Operation V)) :
    (srv.pushLoop noFaults (ops.map Operation.toDict)).raised = none ∧
      (srv.pushLoop noFaults (ops.map Operation.toDict)).processed = ops := by
  have hraised : (srv.pushLoop noFaults (ops.map Operation.toDict)).raised = none := by
    induction ops generalizing srv with
    | nil => rfl
    | cons op rest ih =>
      have hone := (srv.pushOne_pushed none op).raised
      rw [List.map_cons, pushLoop, Operation.fromDict_toDict]
      simp only
      rcases hp : srv.pushOne (noFaults 0) op with ⟨srv', - | exc⟩
      · exact ih srv'
      · rw [show noFaults 0 = none from rfl] at hp
        rw [hp] at hone
        cases hone
  have hdone := srv.pushLoop_done noFaults _ hraised
  rw [Operation.decoded_map_toDict] at hdone
  exact ⟨hraised, hdone⟩

/-- An engine unpacks the delta from the response, also where it is empty and left out. -/
theorem unpackResponse_answer (srv : Server V) (now : Readings) (req : SyncPushRequest V)
    (processed : List (Operation V)) :
    Engine.unpackResponse (srv.answer now req processed).2 =
      .ok ((srv.getOperationsForPeer now.enqueued (VectorClock.ofDict req.senderVectorClock)
        req.nodeId).map Operation.toDict) := by
  unfold answer Engine.unpackResponse
  simp only
  generalize
    srv.getOperationsForPeer now.enqueued (VectorClock.ofDict req.senderVectorClock) req.nodeId = delta
  cases delta <;> rfl

/-- What an answer with the status `ok` says about the run of the handler. -/
structure AnsweredOk (srv : Server V) (now : Readings) (req : SyncPushRequest V)
    (result : Server V × SyncPullResponse V) : Prop where
  identity : result.1.identity = srv.identity
  localStore : result.1.localStore =
    (requestOps req).foldl srv.conflictResolver.process srv.localStore
  acked : result.2.ackedOpIds = (requestOps req).map Operation.opId
  payload : Engine.unpackResponse result.2 = .ok ((result.1.getOperationsForPeer now.enqueued
    (VectorClock.ofDict req.senderVectorClock) req.nodeId).map Operation.toDict)

/-- The registration check. -/
def refuses (srv : Server V) (nodeId : String) : Bool :=
  srv.config.nodeRegistrationRequired && (srv.getNodeStatus nodeId).isNone

/-- A request is turned away before the loop, raises in it, or is answered. -/
theorem handleSyncRequest_ends (srv : Server V) (faults : ℕ → Option Fault) (now : Readings)
    (req : SyncPushRequest V) :
    (∃ error, srv.handleSyncRequest faults now req = (srv, srv.errorResponse req error) ∧
        ∀ dicts, srv.refuses req.nodeId = false → unpackRequest req ≠ .ok dicts) ∨
      ∃ dicts, srv.refuses req.nodeId = false ∧ unpackRequest req = .ok dicts ∧
        ((∃ exc error, (srv.pushLoop faults dicts).raised = some exc ∧
            srv.handleSyncRequest faults now req =
              ((srv.pushLoop faults dicts).server, srv.errorResponse req error)) ∨
          ((srv.pushLoop faults dicts).raised = none ∧
            srv.handleSyncRequest faults now req = (srv.pushLoop faults dicts).server.answer now req
              (srv.pushLoop faults dicts).processed)) := by
  unfold handleSyncRequest refuses
  by_cases hreg : (srv.config.nodeRegistrationRequired && (srv.getNodeStatus req.nodeId).isNone) = true
  · rw [if_pos hreg]
    refine Or.inl ⟨_, rfl, fun dicts hpasses => ?_⟩
    rw [hreg] at hpasses
    cases hpasses
  · rw [if_neg hreg]
    cases hunpack : unpackRequest req with
    | error exc => exact Or.inl ⟨exc, rfl, fun _ _ h => by cases h⟩
    | ok dicts =>
      refine Or.inr ⟨dicts, Bool.eq_false_iff.2 hreg, rfl, ?_⟩
      simp only
      cases hraised : (srv.pushLoop faults dicts).raised with
      | some exc => exact Or.inl ⟨exc, _, rfl, rfl⟩
      | none => exact Or.inr ⟨rfl, rfl⟩

/-- An answer with the status `ok` comes from a loop that did not raise. -/
theorem answered_of_ok (srv : Server V) {faults : ℕ → Option Fault} {now : Readings}
    {req : SyncPushRequest V} (h : (srv.handleSyncRequest faults now req).2.status = "ok") :
    ∃ dicts, unpackRequest req = .ok dicts ∧ (srv.pushLoop faults dicts).raised = none ∧
      srv.handleSyncRequest faults now req = (srv.pushLoop faults dicts).server.answer now req
        (srv.pushLoop faults dicts).processed := by
  have herror : ∀ exc, (srv.errorResponse req exc).status ≠ "ok" := by
    intro exc
    change "error" ≠ "ok"
    decide
  rcases srv.handleSyncRequest_ends faults now req with
    ⟨error, hresult, -⟩ | ⟨dicts, -, hunpack, ⟨exc, error, -, hresult⟩ | ⟨hraised, hresult⟩⟩
  · rw [hresult] at h
    exact absurd h (herror error)
  · rw [hresult] at h
    exact absurd h (herror error)
  · exact ⟨dicts, hunpack, hraised, hresult⟩

theorem handleSyncRequest_ok (srv : Server V) (faults : ℕ → Option Fault) (now : Readings)
    (req : SyncPushRequest V) (h : (srv.handleSyncRequest faults now req).2.status = "ok") :
    AnsweredOk srv now req (srv.handleSyncRequest faults now req) := by
  obtain ⟨dicts, hunpack, hraised, hresult⟩ := srv.answered_of_ok h
  obtain ⟨hid, -, hstore⟩ := srv.pushLoop_frame faults dicts
  have hprocessed := srv.pushLoop_done faults dicts hraised
  have hops : requestOps req = Operation.decoded dicts := by rw [requestOps, hunpack]
  rw [← hops] at hprocessed
  rw [hprocessed] at hstore
  rw [hresult]
  refine ⟨hid, hstore, congrArg (List.map Operation.opId) hprocessed, ?_⟩
  rw [unpackResponse_answer]
  rfl

/-- A request is answered `ok` or with an error. -/
theorem handleSyncRequest_status (srv : Server V) (faults : ℕ → Option Fault) (now : Readings)
    (req : SyncPushRequest V) : (srv.handleSyncRequest faults now req).2.status = "ok" ∨
      (srv.handleSyncRequest faults now req).2.status = "error" := by
  rcases srv.handleSyncRequest_ends faults now req with
    ⟨error, hresult, -⟩ | ⟨dicts, -, -, ⟨exc, error, -, hresult⟩ | ⟨-, hresult⟩⟩
  · exact Or.inr (by rw [hresult]; rfl)
  · exact Or.inr (by rw [hresult]; rfl)
  · exact Or.inl (by rw [hresult]; rfl)

/-- An iteration that was completed was one of a dictionary of the request. -/
theorem mem_processed (srv : Server V) (faults : ℕ → Option Fault) (dicts : List (OpDict V))
    {op : Operation V} (h : op ∈ (srv.pushLoop faults dicts).processed) :
    ∃ d ∈ dicts, Operation.fromDict d = .ok op := by
  induction dicts generalizing srv faults with
  | nil => simp [pushLoop] at h
  | cons d rest ih =>
    unfold pushLoop at h
    cases hd : Operation.fromDict d with
    | error exc => simp [hd] at h
    | ok o =>
      simp only [hd] at h
      rcases hp : srv.pushOne (faults 0) o with ⟨srv', - | exc⟩
      · rw [hp] at h
        rcases List.mem_cons.1 h with rfl | h
        · exact ⟨d, by simp, hd⟩
        · obtain ⟨b, hb, hop⟩ := ih srv' _ h
          exact ⟨b, by simp [hb], hop⟩
      · rw [hp] at h
        simp at h

theorem mem_completedBy (srv : Server V) (faults : ℕ → Option Fault) (req : SyncPushRequest V)
    {op : Operation V} (h : op ∈ srv.completedBy faults req) :
    ∃ dicts, unpackRequest req = .ok dicts ∧ ∃ d ∈ dicts, Operation.fromDict d = .ok op := by
  unfold completedBy at h
  split_ifs at h with hreg
  · simp at h
  · cases hu : unpackRequest req with
    | error exc => simp [hu] at h
    | ok dicts =>
      rw [hu] at h
      exact ⟨dicts, rfl, srv.mem_processed faults dicts h⟩

/-- A response acknowledges only operations whose iteration the request completed. -/
theorem acked_completed (srv : Server V) (faults : ℕ → Option Fault) (now : Readings)
    (req : SyncPushRequest V) {opId : String}
    (h : opId ∈ (srv.handleSyncRequest faults now req).2.ackedOpIds) :
    ∃ op ∈ srv.completedBy faults req, op.opId = opId := by
  rcases srv.handleSyncRequest_ends faults now req with
    ⟨error, hresult, -⟩ | ⟨dicts, hpasses, hunpack, ⟨exc, error, -, hresult⟩ | ⟨-, hresult⟩⟩
  · rw [hresult] at h
    cases h
  · rw [hresult] at h
    cases h
  · rw [hresult] at h
    unfold refuses at hpasses
    rw [completedBy, if_neg (Bool.eq_false_iff.1 hpasses), hunpack]
    exact List.mem_map.1 h

end Server
end Dhava
