import Dhava.Spec.Conflict
import Dhava.Spec.Outbox
import Dhava.Spec.Protocol

/-! The sync engine (`engine.py`). Readings of the clock, random ids and everything the
link does are arguments. `beginSync` and `finishSync` are the two halves of `sync_now`,
up to and after the exchange. -/

namespace Dhava

open Foundations

inductive EngineState
  | disconnected | connected | syncing | error
  deriving DecidableEq, Repr

/-- With the platform the process runs on, which is not a field of the source's class. -/
structure EngineConfig where
  batchSize : ℤ := 100
  lowBandwidthThresholdBps : ℤ := 128000
  highBandwidthThresholdBps : ℤ := 1000000
  clockSkewToleranceSeconds : ℚ := 1
  auditEnabled : Bool := true
  platform : Platform := {}

structure Engine (V : Type) where
  nodeId : String
  localStore : LocalStore V
  outbox : OutboxQueue V
  conflictResolver : ConflictResolver
  audit : List AuditEntry
  config : EngineConfig
  state : EngineState
  lastError : Option String
  lamportCounter : ℤ
  globalVectorClock : VectorClock

structure SyncSession where
  status : String := "in_progress"
  error : Option String := none
  opsPushed : ℕ := 0
  opsPulled : ℕ := 0
  conflictsDetected : ℕ := 0
  conflictsResolved : ℕ := 0
  deriving DecidableEq

/-- The arguments of one create, update, merge or delete call, with the id and the clock
readings `Operation.create` draws. `delete` has no data argument. -/
structure LocalCall (V : Type) where
  opType : OperationType
  collection : String
  recordId : String
  data : Dict String V := ∅
  priority : Priority := .p2
  userId : Option String := none
  authority : Option String := none
  sourceModule : String := "app"
  opId : String
  now : ℚ
  enqueuedAt : ℚ

variable {V : Type}

def LocalCall.key (c : LocalCall V) : Key := (c.collection, c.recordId)

namespace Engine

/-- `__init__` on what a database holds. The boot resets failed rows and the counters. -/
def boot (nodeId : String) (config : EngineConfig) (localStore : LocalStore V)
    (outbox : OutboxQueue V) (audit : List AuditEntry) : Engine V where
  nodeId
  localStore
  outbox := { outbox.resetInFlight with syncLocked := false }
  conflictResolver :=
    { nodeId, clockSkewTolerance := config.clockSkewToleranceSeconds, plus := config.platform.plus }
  audit
  config
  state := .disconnected
  lastError := none
  lamportCounter := 0
  globalVectorClock := VectorClock.ofDict ((∅ : Dict String ℤ).insert nodeId 0)

/-- `DDILSyncEngine.create` on a new database. -/
def create (nodeId : String) (config : EngineConfig := {}) : Engine V :=
  boot nodeId config (LocalStore.empty config.platform.ties) OutboxQueue.empty []

/-- A new process on the same database. -/
def restart (e : Engine V) : Engine V := boot e.nodeId e.config e.localStore e.outbox e.audit

/-! ### Local writes -/

/-- The operation a local call creates, stamped on top of the stored clock. -/
def stamp (e : Engine V) (c : LocalCall V) : Engine V × Operation V :=
  let lamportCounter := e.lamportCounter + 1
  let newVc := (e.localStore.getVectorClock c.key).increment e.nodeId
  let op : Operation V :=
    { opId := c.opId, nodeId := e.nodeId, opType := c.opType
      collection := c.collection, recordId := c.recordId
      payload := if c.opType = .delete then ∅ else c.data
      timestamp := c.now, vectorClock := newVc.clocks, lamportTimestamp := lamportCounter
      priority := c.priority, userId := c.userId, authority := c.authority
      sourceModule := c.sourceModule, enqueuedAt := c.enqueuedAt }
  ({ e with lamportCounter, globalVectorClock := e.globalVectorClock.merge newVc.clocks }, op)

/-- `apply_operation` on the stamped engine. -/
def applyLocal (e : Engine V) (op : Operation V) : Engine V × Record V :=
  let (localStore, record) := e.localStore.applyOperation op
  ({ e with localStore }, record)

def auditLocalWrite (e : Engine V) (op : Operation V) : Engine V :=
  if e.config.auditEnabled then
    { e with audit := e.audit ++
      [{ actionType := "local_write", nodeId := e.nodeId
         details := .localWrite op.opId op.collection op.recordId op.opType.value op.priority.value
         userId := op.userId, authority := op.authority }] }
  else e

/-- The common body of create, update, merge and delete: stamp, apply, enqueue, audit. The
result is the operation with the record `apply_operation` returned. -/
def write (e : Engine V) (c : LocalCall V) : Engine V × Except String (Operation V × Record V) :=
  let (e, op) := e.stamp c
  let (e, record) := e.applyLocal op
  match e.outbox.enqueue op with
  | .error exc => (e, .error exc)
  | .ok outbox => (auditLocalWrite { e with outbox } op, .ok (op, record))

def createRecord (e : Engine V) (c : LocalCall V) : Engine V × Except String (Operation V × Record V) :=
  e.write { c with opType := .create }

def update (e : Engine V) (c : LocalCall V) : Engine V × Except String (Operation V × Record V) :=
  e.write { c with opType := .update }

def merge (e : Engine V) (c : LocalCall V) : Engine V × Except String (Operation V × Record V) :=
  e.write { c with opType := .merge }

def delete (e : Engine V) (c : LocalCall V) : Engine V × Except String (Operation V × Record V) :=
  e.write { c with opType := .delete }

/-- One call of the application. -/
def call (e : Engine V) (c : LocalCall V) : Engine V × Except String (Operation V × Record V) :=
  match c.opType with
  | .create => e.createRecord c
  | .update => e.update c
  | .merge => e.merge c
  | .delete => e.delete c

theorem call_eq_write (e : Engine V) (c : LocalCall V) : e.call c = e.write c := by
  cases c with
  | mk opType => cases opType <;> rfl

/-! ### Selecting a batch -/

def calculateBatchSize (e : Engine V) (bandwidthBps : ℤ) : ℤ :=
  if bandwidthBps > e.config.highBandwidthThresholdBps then e.config.batchSize
  else if bandwidthBps > e.config.lowBandwidthThresholdBps then min e.config.batchSize 50
  else if bandwidthBps > 16000 then min e.config.batchSize 20
  else min e.config.batchSize 5

def calculatePriorityCutoff (e : Engine V) (bandwidthBps : ℤ) : Priority :=
  if bandwidthBps ≥ e.config.highBandwidthThresholdBps then .p4
  else if bandwidthBps ≥ e.config.lowBandwidthThresholdBps then .p3
  else if bandwidthBps ≥ 16000 then .p2
  else .p0

def pendingBatch (e : Engine V) (bandwidthBps : ℤ) : List (Operation V) :=
  e.outbox.getPending (e.calculateBatchSize bandwidthBps) none
    (some (e.calculatePriorityCutoff bandwidthBps))

/-- The return value of `outbox.lock()` is not looked at. -/
def beginSync (e : Engine V) (sessionId : String) (bandwidthBps : ℤ) :
    Engine V × List (Operation V) × SyncPushRequest V :=
  let pendingOps := e.pendingBatch bandwidthBps
  let pushReq : SyncPushRequest V :=
    { nodeId := e.nodeId, sessionId, operationCount := pendingOps.length
      senderVectorClock := e.globalVectorClock.clocks
      encryptedPayload := .packed (pendingOps.map Operation.toDict), hashMatches := true }
  ({ e with state := .syncing, outbox := e.outbox.lock.1 }, pendingOps, pushReq)

/-! ### The pull loop -/

structure PullTally where
  pulled : ℕ := 0
  detected : ℕ := 0
  resolved : ℕ := 0

/-- What the pull loop leaves: the counters, the operations that went through `resolve`,
and the exception that ended it. -/
structure PullResult (V : Type) where
  engine : Engine V
  tally : PullTally
  processed : List (Operation V)
  raised : Option String

/-- One iteration of the pull loop on a decoded operation; `some exc` where it raises. -/
def pullOne (e : Engine V) (fault : Option Fault) (remoteOp : Operation V) : Engine V × Option String :=
  let e := { e with
    lamportCounter := max e.lamportCounter remoteOp.lamportTimestamp + 1
    globalVectorClock := e.globalVectorClock.merge remoteOp.vectorClock }
  let resolution := e.conflictResolver.resolve (e.localStore.get remoteOp.key true) remoteOp
  let audits := e.config.auditEnabled && resolution.comparison = some .concurrent
  let entry : AuditEntry :=
    { actionType := "conflict_resolved", nodeId := e.nodeId
      details := .conflict resolution.auditDetail }
  match resolution.applies, fault with
  | _, some (.read exc) => (e, some exc)
  | true, some (.store exc) => (e, some exc)
  | applies, _ =>
    let e := if applies then { e with localStore := (e.localStore.applyOperation remoteOp).1 } else e
    match audits, fault with
    | true, some (.audit exc) => (e, some exc)
    | true, _ => ({ e with audit := e.audit ++ [entry] }, none)
    | false, _ => (e, none)

def pullLoop (e : Engine V) (faults : ℕ → Option Fault) : List (OpDict V) → PullResult V
  | [] => ⟨e, {}, [], none⟩
  | opDict :: rest =>
    match Operation.fromDict opDict with
    | .error exc => ⟨e, {}, [], some exc⟩
    | .ok remoteOp =>
      let resolution := e.conflictResolver.resolve (e.localStore.get remoteOp.key true) remoteOp
      match e.pullOne (faults 0) remoteOp with
      | (e', some exc) => ⟨e', {}, [remoteOp], some exc⟩
      | (e', none) =>
        let result := pullLoop e' (fun i => faults (i + 1)) rest
        { result with
          processed := remoteOp :: result.processed
          tally :=
            { pulled := result.tally.pulled + 1
              detected := result.tally.detected + if resolution.comparison = some .concurrent then 1 else 0
              resolved := result.tally.resolved + if resolution.applies then 1 else 0 } }

/-! ### The second half of `sync_now` -/

/-- The exits that mark the batch failed. -/
def failBatch (e : Engine V) (pendingOps : List (Operation V)) (errMsg : String) :
    Engine V × SyncSession :=
  ({ e with
      outbox := e.outbox.markFailed (pendingOps.map Operation.opId) errMsg
      lastError := some errMsg, state := .connected },
    { status := "failed", error := some errMsg, opsPushed := pendingOps.length })

/-- The `except` clause. -/
def raiseOut (e : Engine V) (opsPushed : ℕ) (exc : String) : Engine V × SyncSession :=
  ({ e with lastError := some exc, state := .error },
    { status := "failed", error := some exc, opsPushed })

def auditSync (e : Engine V) (peerNodeId : String) (session : SyncSession) : Engine V :=
  if e.config.auditEnabled then
    let push : AuditEntry :=
      { actionType := "sync_push", nodeId := e.nodeId
        details := .syncPush peerNodeId session.opsPushed }
    let pull : AuditEntry :=
      { actionType := "sync_pull", nodeId := e.nodeId
        details := .syncPull peerNodeId session.opsPulled }
    { e with audit := e.audit ++ if session.opsPulled > 0 then [push, pull] else [push] }
  else e

/-- `pull_resp.encrypted_payload`, decrypted and unpacked; `b""` is skipped. -/
def unpackResponse (resp : SyncPullResponse V) : Except String (List (OpDict V)) :=
  match resp.encryptedPayload with
  | .empty => .ok []
  | .undecodable exc => .error exc
  | .packed dicts => .ok dicts

/-- Steps 6 and 7 on a response whose status is not `error`. -/
def acceptResponse (e : Engine V) (pendingOps : List (Operation V)) (now : ℚ)
    (faults : ℕ → Option Fault) (resp : SyncPullResponse V) : Engine V × SyncSession :=
  let e := { e with outbox := e.outbox.markSynced resp.ackedOpIds now }
  match unpackResponse resp with
  | .error exc => e.raiseOut pendingOps.length exc
  | .ok dicts =>
    let result := e.pullLoop faults dicts
    match result.raised with
    | some exc => result.engine.raiseOut pendingOps.length exc
    | none =>
      let session : SyncSession :=
        { status := "completed", opsPushed := pendingOps.length, opsPulled := result.tally.pulled
          conflictsDetected := result.tally.detected, conflictsResolved := result.tally.resolved }
      ({ result.engine.auditSync resp.nodeId session with state := .connected }, session)

def finishSync (e : Engine V) (pendingOps : List (Operation V)) (now : ℚ)
    (faults : ℕ → Option Fault) (x : Exchange V) : Engine V × SyncSession :=
  let (e, session) :=
    match x with
    | .notSent exc => e.raiseOut 0 exc
    | .failed error => e.failBatch pendingOps error
    | .undecodable exc => e.raiseOut pendingOps.length exc
    | .response resp =>
      if resp.status = "error" then
        e.failBatch pendingOps resp.errMsg
      else e.acceptResponse pendingOps now faults resp
  ({ e with outbox := e.outbox.unlock }, session)

/-- `link` is the bandwidth estimate of the active transport, `none` without one. -/
def syncNow (e : Engine V) (sessionId : String) (link : Option ℤ) (now : ℚ)
    (faults : ℕ → Option Fault) (exchange : SyncPushRequest V → Exchange V) :
    Engine V × SyncSession :=
  match link with
  | none =>
    ({ e with state := .disconnected },
      { status := "failed", error := some "No active transport available" })
  | some bandwidthBps =>
    let (e, pendingOps, pushReq) := e.beginSync sessionId bandwidthBps
    e.finishSync pendingOps now faults (exchange pushReq)

end Engine
end Dhava
