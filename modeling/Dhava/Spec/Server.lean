import Dhava.Spec.Conflict
import Dhava.Spec.Protocol

/-! The sync server (`server.py`). A storage exception inside the push loop leaves the
effects of the iterations before it in place, as the code does. -/

namespace Dhava

open Foundations

/-- A row of the `sync_nodes` table. -/
structure NodeRow (V : Type) where
  nodeId : String
  publicKey : Option (List UInt8)
  registeredAt : ℚ
  lastSyncAt : Option ℚ := none
  lastSyncStatus : String := "never"
  totalOpsSynced : ℤ := 0
  metadata : Dict String V

/-- With the platform, as in `EngineConfig`. -/
structure ServerConfig where
  auditEnabled : Bool := true
  nodeRegistrationRequired : Bool := false
  platform : Platform := {}

structure Server (V : Type) where
  serverNodeId : String
  localStore : LocalStore V
  conflictResolver : ConflictResolver
  audit : List AuditEntry
  config : ServerConfig
  lamportCounter : ℤ
  globalVectorClock : VectorClock
  syncNodes : Keyed (NodeRow.nodeId (V := V))

/-- What `time.time()` returns while a request is handled: to the operations of the delta, to the
telemetry, and then to the registration that the telemetry makes sure of. -/
structure Readings where
  enqueued : ℚ
  synced : ℚ
  registered : ℚ

/-- A clock that does not move meanwhile. -/
def Readings.still (now : ℚ) : Readings := ⟨now, now, now⟩

instance (n : ℕ) : OfNat Readings n := ⟨.still n⟩

variable {V : Type}

/-- `DDILSyncServer(...)` on an empty database. -/
def Server.new (serverNodeId : String) (conflictResolver : ConflictResolver)
    (config : ServerConfig) : Server V where
  serverNodeId
  localStore := LocalStore.empty config.platform.ties
  conflictResolver
  audit := []
  config
  lamportCounter := 0
  globalVectorClock := VectorClock.ofDict ((∅ : Dict String ℤ).insert serverNodeId 0)
  syncNodes := Keyed.empty

/-- `DDILSyncServer.create` leaves the resolver's tolerance at its default. -/
def Server.create (serverNodeId : String) (config : ServerConfig := {}) : Server V :=
  Server.new serverNodeId { nodeId := serverNodeId, plus := config.platform.plus } config

/-- What the push loop leaves: the operations whose iteration was completed, and the
exception that ended it. -/
structure PushResult (V : Type) where
  server : Server V
  processed : List (Operation V)
  raised : Option String

namespace Server

def getNodeStatus (srv : Server V) (nodeId : String) : Option (NodeRow V) := srv.syncNodes.find? nodeId

def registerNode (srv : Server V) (now : ℚ) (nodeId : String)
    (publicKey : Option (List UInt8) := none) (metadata : Dict String V := ∅) : Server V :=
  let key := publicKey.filter (· ≠ [])
  let row : NodeRow V := { nodeId, publicKey := key, registeredAt := now, metadata }
  let syncNodes := srv.syncNodes.upsert row
    (fun stored => { stored with publicKey := key.or stored.publicKey, metadata }) fun _ => rfl
  { srv with syncNodes }

def updateNodeSyncTelemetry (srv : Server V) (now : Readings) (nodeId : String) (opsSynced : ℕ)
    (status : String) : Server V :=
  let srv := srv.registerNode now.registered nodeId
  let syncNodes := srv.syncNodes.update (fun row => row.nodeId = nodeId)
    (fun row => { row with
      lastSyncAt := some now.synced, lastSyncStatus := status
      totalOpsSynced := row.totalOpsSynced + opsSynced })
    fun _ => rfl
  { srv with syncNodes }

/-- One iteration of the push loop on a decoded operation; `some exc` where it raises. -/
def pushOne (srv : Server V) (fault : Option Fault) (op : Operation V) : Server V × Option String :=
  let srv := { srv with
    lamportCounter := max srv.lamportCounter op.lamportTimestamp + 1
    globalVectorClock := srv.globalVectorClock.merge op.vectorClock }
  let resolution := srv.conflictResolver.resolve (srv.localStore.get op.key true) op
  let audits := resolution.comparison = some .concurrent && srv.config.auditEnabled
  let entry : AuditEntry :=
    { actionType := "conflict_resolved", nodeId := srv.serverNodeId
      details := .conflict resolution.auditDetail }
  match audits, fault with
  | _, some (.read exc) => (srv, some exc)
  | true, some (.audit exc) => (srv, some exc)
  | _, _ =>
    let srv := if audits then { srv with audit := srv.audit ++ [entry] } else srv
    match resolution.applies, fault with
    | true, some (.store exc) => (srv, some exc)
    | true, _ => ({ srv with localStore := (srv.localStore.applyOperation op).1 }, none)
    | false, _ => (srv, none)

def pushLoop (srv : Server V) (faults : ℕ → Option Fault) : List (OpDict V) → PushResult V
  | [] => ⟨srv, [], none⟩
  | opDict :: rest =>
    match Operation.fromDict opDict with
    | .error exc => ⟨srv, [], some exc⟩
    | .ok op =>
      match srv.pushOne (faults 0) op with
      | (srv', some exc) => ⟨srv', [], some exc⟩
      | (srv', none) =>
        let result := pushLoop srv' (fun i => faults (i + 1)) rest
        { result with processed := op :: result.processed }

/-- The operation the delta carries for a stored row. -/
def snapshotOp (now : ℚ) (rec : Record V) : Operation V where
  opId := s!"srv-{rec.collection}-{rec.recordId}-{rec.version}"
  nodeId := rec.lastModifiedBy
  opType := if rec.deleted then .delete else .update
  collection := rec.collection
  recordId := rec.recordId
  payload := rec.data
  timestamp := rec.lastModified
  vectorClock := rec.vectorClock
  lamportTimestamp := rec.version
  priority := .p2
  enqueuedAt := now

/-- The test of `_get_operations_for_peer` on one record. -/
def newForPeer (peerVc : VectorClock) (peerNodeId : String) (rec : Record V) : Bool :=
  let comparison := peerVc.compare (VectorClock.ofDict rec.vectorClock).clocks
  rec.lastModifiedBy ≠ peerNodeId && (comparison = .before || comparison = .concurrent)

def getOperationsForPeer (srv : Server V) (now : ℚ) (peerVc : VectorClock) (peerNodeId : String) :
    List (Operation V) :=
  srv.localStore.getAllCollections.flatMap fun coll =>
    let records := srv.localStore.query coll (fun _ => true) 500 0 true
    (records.filter (newForPeer peerVc peerNodeId)).map (snapshotOp now)

/-- Unpack the pushed dictionaries, or say what the error response says. -/
def unpackRequest (req : SyncPushRequest V) : Except String (List (OpDict V)) :=
  match req.encryptedPayload with
  | .empty => .ok []
  | .undecodable exc => .error s!"Failed to unpack operations: {exc}"
  | .packed dicts =>
    if req.hashMatches then .ok dicts
    else .error "Payload hash mismatch (integrity check failed)"

def errorResponse (srv : Server V) (req : SyncPushRequest V) (error : String) : SyncPullResponse V where
  nodeId := srv.serverNodeId
  sessionId := req.sessionId
  status := "error"
  ackedOpIds := []
  error := some error

/-- Steps 2 to 5: the delta, the telemetry and the response. -/
def answer (srv : Server V) (now : Readings) (req : SyncPushRequest V)
    (processed : List (Operation V)) : Server V × SyncPullResponse V :=
  let senderVc := VectorClock.ofDict req.senderVectorClock
  let deltaOps := srv.getOperationsForPeer now.enqueued senderVc req.nodeId
  let resp : SyncPullResponse V :=
    { nodeId := srv.serverNodeId, sessionId := req.sessionId, status := "ok"
      ackedOpIds := processed.map Operation.opId, operationCount := deltaOps.length
      encryptedPayload := if deltaOps.isEmpty then .empty else .packed (deltaOps.map Operation.toDict) }
  (srv.updateNodeSyncTelemetry now req.nodeId processed.length "ok", resp)

def handleSyncRequest (srv : Server V) (faults : ℕ → Option Fault) (now : Readings)
    (req : SyncPushRequest V) : Server V × SyncPullResponse V :=
  if srv.config.nodeRegistrationRequired && (srv.getNodeStatus req.nodeId).isNone then
    (srv, srv.errorResponse req s!"Node '{req.nodeId}' is not registered on this server")
  else
    match unpackRequest req with
    | .error error => (srv, srv.errorResponse req error)
    | .ok dicts =>
      let result := srv.pushLoop faults dicts
      match result.raised with
      | some exc =>
        (result.server, srv.errorResponse req s!"Failed to unpack operations: {exc}")
      | none => result.server.answer now req result.processed

/-- The operations whose loop iteration a request completes, acknowledged or not. -/
def completedBy (srv : Server V) (faults : ℕ → Option Fault) (req : SyncPushRequest V) :
    List (Operation V) :=
  if srv.config.nodeRegistrationRequired && (srv.getNodeStatus req.nodeId).isNone then []
  else
    match unpackRequest req with
    | .error _ => []
    | .ok dicts => (srv.pushLoop faults dicts).processed

end Server

/-- A call of the server with what its environment decides. -/
inductive ServerCall (V : Type)
  | register (now : ℚ) (nodeId : String) (publicKey : Option (List UInt8)) (metadata : Dict String V)
  | request (faults : ℕ → Option Fault) (now : Readings) (req : SyncPushRequest V)

namespace Server

def serve (srv : Server V) : ServerCall V → Server V
  | .register now nodeId publicKey metadata => srv.registerNode now nodeId publicKey metadata
  | .request faults now req => (srv.handleSyncRequest faults now req).1

/-- The response to a request. A registration has none. -/
def reply (srv : Server V) : ServerCall V → Option (SyncPullResponse V)
  | .register .. => none
  | .request faults now req => some (srv.handleSyncRequest faults now req).2

end Server
end Dhava
