import Dhava.Spec.Engine

/-! `sync_now` where any statement in its `try` block can raise. What ran before an exception
stays done, and a transaction that raises leaves its table as it was. The exceptions are those
`except Exception` catches. -/

namespace Dhava

variable {V : Type}

/-- The statements of the `try` block that can raise, in their order. The answer of the link, its
decoding and the pull loop are not among them: what becomes of these is in the environment. -/
inductive SyncStep
  | estimateBandwidth | calculateBatch | lock | getPending
  | packOps | encrypt | createRequest | serialize
  | markFailed | markSynced
  | auditPush | auditPull | notifyStatusChange
  deriving DecidableEq

/-- All that one `sync_now` does not decide itself. -/
structure SyncEnv (V : Type) where
  sessionId : String
  now : ℚ
  raises : SyncStep → Option String
  exchange : SyncPushRequest V → Exchange V
  faults : ℕ → Option Fault

/-- The engine and the variables of one `sync_now`. -/
structure SyncRun (V : Type) where
  engine : Engine V
  session : SyncSession := {}
  pendingOps : List (Operation V) := []

abbrev SyncM (V : Type) := EStateM String (SyncRun V)

namespace SyncM

def onEngine (f : Engine V → Engine V) : SyncM V Unit :=
  modify fun run => { run with engine := f run.engine }

def onSession (f : SyncSession → SyncSession) : SyncM V Unit :=
  modify fun run => { run with session := f run.session }

end SyncM

namespace SyncEnv

open SyncM

variable (env : SyncEnv V)

def attempt (step : SyncStep) : SyncM V Unit :=
  match env.raises step with
  | some exc => throw exc
  | none => pure ()

/-- Steps 1 to 3 and the serialization of the request. -/
def prepare (bandwidthBps : ℤ) : SyncM V (SyncPushRequest V) := do
  env.attempt .estimateBandwidth
  env.attempt .calculateBatch
  env.attempt .lock
  onEngine fun e => { e with outbox := e.outbox.lock.1 }
  env.attempt .getPending
  modify fun run => { run with pendingOps := run.engine.pendingBatch bandwidthBps }
  env.attempt .packOps
  env.attempt .encrypt
  env.attempt .createRequest
  env.attempt .serialize
  let run ← get
  return {
    nodeId := run.engine.nodeId, sessionId := env.sessionId
    operationCount := run.pendingOps.length
    senderVectorClock := run.engine.globalVectorClock.clocks
    encryptedPayload := .packed (run.pendingOps.map Operation.toDict), hashMatches := true }

/-- The exits that mark the batch failed. `mark_failed` does nothing on no ids. -/
def failBatch (errMsg : String) : SyncM V Unit := do
  let opIds := (← get).pendingOps.map Operation.opId
  if opIds ≠ [] then
    env.attempt .markFailed
    onEngine fun e => { e with outbox := e.outbox.markFailed opIds errMsg }
  onSession fun session => { session with status := "failed", error := some errMsg }
  onEngine fun e => { e with lastError := some errMsg, state := .connected }

/-- Step 6. -/
def markAcked (resp : SyncPullResponse V) : SyncM V Unit := do
  if resp.ackedOpIds ≠ [] then
    env.attempt .markSynced
    onEngine fun e => { e with outbox := e.outbox.markSynced resp.ackedOpIds env.now }

/-- The payload of step 7. -/
def unpackPulled (resp : SyncPullResponse V) : SyncM V (List (OpDict V)) :=
  match Engine.unpackResponse resp with
  | .error exc => throw exc
  | .ok dicts => return dicts

/-- The loop of step 7. Where it raises, what it has done stays. -/
def applyPulled (dicts : List (OpDict V)) : SyncM V Engine.PullTally := do
  let result := (← get).engine.pullLoop env.faults dicts
  onEngine fun _ => result.engine
  match result.raised with
  | some exc => throw exc
  | none => return result.tally

def auditSync (peerNodeId : String) : SyncM V Unit := do
  let session := (← get).session
  if (← get).engine.config.auditEnabled then
    env.attempt .auditPush
    onEngine fun e => { e with audit := e.audit ++
      [{ actionType := "sync_push", nodeId := e.nodeId
         details := .syncPush peerNodeId session.opsPushed }] }
    if session.opsPulled > 0 then
      env.attempt .auditPull
      onEngine fun e => { e with audit := e.audit ++
        [{ actionType := "sync_pull", nodeId := e.nodeId
           details := .syncPull peerNodeId session.opsPulled }] }

/-- From step 6 on. A status callback that raises is passed over, `get_status` before it is not. -/
def acceptResponse (resp : SyncPullResponse V) : SyncM V Unit := do
  env.markAcked resp
  let dicts ← unpackPulled resp
  let tally ← env.applyPulled dicts
  onSession fun session => { session with
    opsPulled := tally.pulled, conflictsDetected := tally.detected
    conflictsResolved := tally.resolved, status := "completed" }
  env.auditSync resp.nodeId
  onEngine fun e => { e with state := .connected }
  env.attempt .notifyStatusChange

/-- What comes back of the exchange, with the rest of the `try` block. -/
def receive (operationCount : ℕ) (x : Exchange V) : SyncM V Unit := do
  match x with
  | .notSent exc => throw exc
  | .failed error =>
    onSession fun session => { session with opsPushed := operationCount }
    env.failBatch error
  | .undecodable exc =>
    onSession fun session => { session with opsPushed := operationCount }
    throw exc
  | .response resp =>
    onSession fun session => { session with opsPushed := operationCount }
    if resp.status = "error" then env.failBatch resp.errMsg
    else env.acceptResponse resp

/-- The `try` block. -/
def pushPull (bandwidthBps : ℤ) : SyncM V Unit := do
  let pushReq ← env.prepare bandwidthBps
  env.receive pushReq.operationCount (env.exchange pushReq)

/-- The `except` clause. -/
def raiseOut (exc : String) : SyncM V Unit := do
  onSession fun session => { session with status := "failed", error := some exc }
  onEngine fun e => { e with lastError := some exc, state := .error }

/-- `link` is the bandwidth of the active transport, `none` without one. Each way out returns the
one session object. -/
def syncNow (link : Option ℤ) : SyncM V SyncSession := do
  match link with
  | none =>
    onSession fun session =>
      { session with status := "failed", error := some "No active transport available" }
    onEngine fun e => { e with state := .disconnected }
  | some bandwidthBps =>
    onEngine fun e => { e with state := .syncing }
    try env.pushPull bandwidthBps
    catch exc => raiseOut exc
    finally onEngine fun e => { e with outbox := e.outbox.unlock }
  return (← get).session

end SyncEnv
end Dhava
