import Dhava.Spec.Crypto
import Dhava.Spec.Transport
import Dhava.Spec.World

/-! A session in bytes: the messages of `protocol.py` with all their fields, the server on
such a message, and the loopback transport (`transports/loopback.py`) between the two.
MessagePack is a parameter, one pair of functions for each type of message. -/

namespace Dhava.Wire

open Foundations

/-- `pack_msgpack` and `unpack_msgpack` on one type of values. -/
structure Packing (α : Type) where
  pack : α → Except String Bytes
  unpack : Bytes → Except String α

/-! ### Messages -/

def protocolVersion : String := "1.0"

def compressionValue : CompressionAlgorithm → String
  | .zstd => "zstd" | .gzip => "gzip" | .none => "none"

structure SyncPushRequest where
  nodeId : String
  sessionId : String
  operationCount : ℤ
  payloadSizeBytes : ℤ
  payloadHash : String
  compression : String
  encryption : String
  senderVectorClock : Dict String ℤ
  encryptedPayload : Bytes
  protocolVersion : String := Wire.protocolVersion
  timestamp : ℚ

/-- A field is `none` where the dictionary lacks the key. -/
structure RequestDict where
  protocolVersion : Option String
  nodeId : Option String
  sessionId : Option String
  timestamp : Option ℚ
  operationCount : Option ℤ
  payloadSizeBytes : Option ℤ
  payloadHash : Option String
  compression : Option String
  encryption : Option String
  senderVectorClock : Option (Dict String ℤ)
  encryptedPayload : Option Bytes
  deriving DecidableEq

namespace SyncPushRequest

/-- An absent or empty session id is replaced by a new one. -/
def create (hexdigest : Bytes → String) (nodeId : String) (senderVectorClock : Dict String ℤ)
    (encryptedPayload rawPayload : Bytes) (operationCount : ℤ) (sessionId : Option String)
    (uuid : String) (now : ℚ) (compression : String := "zstd")
    (encryption : String := "aes-256-gcm") : SyncPushRequest where
  nodeId
  sessionId := (sessionId.filter fun s => s ≠ "").getD uuid
  operationCount
  payloadSizeBytes := encryptedPayload.length
  payloadHash := hexdigest rawPayload
  compression
  encryption
  senderVectorClock
  encryptedPayload
  timestamp := now

def toDict (req : SyncPushRequest) : RequestDict where
  protocolVersion := some req.protocolVersion
  nodeId := some req.nodeId
  sessionId := some req.sessionId
  timestamp := some req.timestamp
  operationCount := some req.operationCount
  payloadSizeBytes := some req.payloadSizeBytes
  payloadHash := some req.payloadHash
  compression := some req.compression
  encryption := some req.encryption
  senderVectorClock := some req.senderVectorClock
  encryptedPayload := some req.encryptedPayload

def fromDict (now : ℚ) (data : RequestDict) : Except String SyncPushRequest := do
  let nodeId ← item "node_id" data.nodeId
  let sessionId ← item "session_id" data.sessionId
  let operationCount ← item "operation_count" data.operationCount
  let payloadSizeBytes ← item "payload_size_bytes" data.payloadSizeBytes
  let payloadHash ← item "payload_hash" data.payloadHash
  let encryptedPayload ← item "encrypted_payload" data.encryptedPayload
  return {
    protocolVersion := data.protocolVersion.getD Wire.protocolVersion
    nodeId, sessionId, operationCount, payloadSizeBytes, payloadHash, encryptedPayload
    timestamp := data.timestamp.getD now
    compression := data.compression.getD "zstd"
    encryption := data.encryption.getD "aes-256-gcm"
    senderVectorClock := data.senderVectorClock.getD ∅ }

theorem fromDict_toDict (now : ℚ) (req : SyncPushRequest) : fromDict now req.toDict = .ok req := rfl

def serialize (m : Packing RequestDict) (req : SyncPushRequest) : Except String Bytes :=
  m.pack req.toDict

def deserialize (m : Packing RequestDict) (now : ℚ) (raw : Bytes) : Except String SyncPushRequest :=
  match m.unpack raw with
  | .error exc => .error exc
  | .ok data => fromDict now data

end SyncPushRequest

structure SyncPullResponse where
  nodeId : String
  sessionId : String
  status : String
  operationCount : ℤ
  payloadSizeBytes : ℤ
  payloadHash : String
  compression : String
  encryption : String
  ackedOpIds : List String
  rejectedOpIds : Dict String String
  encryptedPayload : Bytes
  error : Option String := none
  protocolVersion : String := Wire.protocolVersion
  timestamp : ℚ

structure ResponseDict where
  protocolVersion : Option String
  nodeId : Option String
  sessionId : Option String
  timestamp : Option ℚ
  status : Option String
  error : Option String
  operationCount : Option ℤ
  payloadSizeBytes : Option ℤ
  payloadHash : Option String
  compression : Option String
  encryption : Option String
  ackedOpIds : Option (List String)
  rejectedOpIds : Option (Dict String String)
  encryptedPayload : Option Bytes
  deriving DecidableEq

namespace SyncPullResponse

def create (hexdigest : Bytes → String) (nodeId sessionId status : String)
    (ackedOpIds : List String) (now : ℚ) (rejectedOpIds : Dict String String := ∅)
    (encryptedPayload : Bytes := []) (rawPayload : Bytes := []) (operationCount : ℤ := 0)
    (compression : String := "zstd") (encryption : String := "aes-256-gcm")
    (error : Option String := none) : SyncPullResponse where
  nodeId
  sessionId
  status
  error
  operationCount
  payloadSizeBytes := encryptedPayload.length
  payloadHash := if rawPayload = [] then "" else hexdigest rawPayload
  compression
  encryption
  ackedOpIds
  rejectedOpIds
  encryptedPayload
  timestamp := now

def toDict (resp : SyncPullResponse) : ResponseDict where
  protocolVersion := some resp.protocolVersion
  nodeId := some resp.nodeId
  sessionId := some resp.sessionId
  timestamp := some resp.timestamp
  status := some resp.status
  error := resp.error
  operationCount := some resp.operationCount
  payloadSizeBytes := some resp.payloadSizeBytes
  payloadHash := some resp.payloadHash
  compression := some resp.compression
  encryption := some resp.encryption
  ackedOpIds := some resp.ackedOpIds
  rejectedOpIds := some resp.rejectedOpIds
  encryptedPayload := some resp.encryptedPayload

def fromDict (now : ℚ) (data : ResponseDict) : Except String SyncPullResponse := do
  let nodeId ← item "node_id" data.nodeId
  let sessionId ← item "session_id" data.sessionId
  let status ← item "status" data.status
  return {
    protocolVersion := data.protocolVersion.getD Wire.protocolVersion
    nodeId, sessionId, status
    timestamp := data.timestamp.getD now
    error := data.error
    operationCount := data.operationCount.getD 0
    payloadSizeBytes := data.payloadSizeBytes.getD 0
    payloadHash := data.payloadHash.getD ""
    compression := data.compression.getD "zstd"
    encryption := data.encryption.getD "aes-256-gcm"
    ackedOpIds := data.ackedOpIds.getD []
    rejectedOpIds := data.rejectedOpIds.getD ∅
    encryptedPayload := data.encryptedPayload.getD [] }

theorem fromDict_toDict (now : ℚ) (resp : SyncPullResponse) :
    fromDict now resp.toDict = .ok resp := rfl

def serialize (m : Packing ResponseDict) (resp : SyncPullResponse) : Except String Bytes :=
  m.pack resp.toDict

def deserialize (m : Packing ResponseDict) (now : ℚ) (raw : Bytes) :
    Except String SyncPullResponse :=
  match m.unpack raw with
  | .error exc => .error exc
  | .ok data => fromDict now data

end SyncPullResponse

/-! ### The two ends -/

/-- The libraries a session calls. -/
structure Libraries (V : Type) where
  crypto : CryptoLibraries
  hexdigest : Bytes → String
  operations : Packing (List (OpDict V))
  requests : Packing RequestDict
  responses : Packing ResponseDict

/-- The crypto layer of an engine or a server, and whether `import zstandard` succeeded there. -/
structure Party where
  crypto : CryptoLayer
  zstdAvailable : Bool

/-- What one call of `CryptoLayer.pack` and one message draw: nonce, gzip time, clock reading. -/
structure Draw where
  nonce : Nonce
  mtime : ℕ
  now : ℚ

/-- At the server, with the clock readings between the two messages. -/
structure ServerDraw extends Draw where
  readings : Readings

variable {V : Type} (libs : Libraries V)

def Party.pack (p : Party) (draw : Draw) (raw : Bytes) : Bytes :=
  p.crypto.pack libs.crypto p.zstdAvailable draw.nonce draw.mtime raw

def Party.unpack (p : Party) (packed : Bytes) : Except String Bytes :=
  p.crypto.unpack libs.crypto p.zstdAvailable packed

/-- Steps 3 and 4 of `sync_now`, up to the bytes handed to the transport manager. -/
def pushBytes (engine : Party) (draw : Draw) (nodeId sessionId uuid : String)
    (senderVectorClock : Dict String ℤ) (dicts : List (OpDict V)) : Except String Bytes := do
  let rawOpsPayload ← libs.operations.pack dicts
  let encryptedPayload := engine.pack libs draw rawOpsPayload
  let pushReq := SyncPushRequest.create libs.hexdigest nodeId senderVectorClock encryptedPayload
    rawOpsPayload dicts.length (some sessionId) uuid draw.now
    (compressionValue engine.crypto.compression)
  pushReq.serialize libs.requests

/-- Step 1 of `handle_sync_request`: the pushed dictionaries, `b""` is skipped. -/
def unpackPush (server : Party) (request : SyncPushRequest) : Except String (List (OpDict V)) :=
  if request.encryptedPayload = [] then .ok []
  else
    match server.unpack libs request.encryptedPayload with
    | .error exc => .error s!"Failed to unpack operations: {exc}"
    | .ok decryptedRaw =>
      if libs.hexdigest decryptedRaw ≠ request.payloadHash then
        .error "Payload hash mismatch (integrity check failed)"
      else
        match libs.operations.unpack decryptedRaw with
        | .error exc => .error s!"Failed to unpack operations: {exc}"
        | .ok opsData => .ok opsData

def errorResponse (srv : Server V) (draw : ServerDraw) (request : SyncPushRequest) (error : String) :
    SyncPullResponse :=
  SyncPullResponse.create libs.hexdigest srv.serverNodeId request.sessionId "error" [] draw.now ∅ [] []
    0 "zstd" "aes-256-gcm" (some error)

/-- Steps 2 to 5. Packing the delta stands outside of the `try` block. -/
def answer (server : Party) (srv : Server V) (draw : ServerDraw) (request : SyncPushRequest)
    (processed : List (Operation V)) : Server V × Except String SyncPullResponse :=
  let deltaOps := srv.getOperationsForPeer draw.readings.enqueued
    (VectorClock.ofDict request.senderVectorClock) request.nodeId
  match libs.operations.pack (deltaOps.map Operation.toDict) with
  | .error exc => (srv, .error exc)
  | .ok rawDeltaBytes =>
    let encryptedDelta := if deltaOps = [] then [] else server.pack libs draw.toDraw rawDeltaBytes
    (srv.updateNodeSyncTelemetry draw.readings request.nodeId processed.length "ok",
      .ok (SyncPullResponse.create libs.hexdigest srv.serverNodeId request.sessionId "ok"
        (processed.map Operation.opId) draw.now ∅ encryptedDelta
        (if deltaOps = [] then [] else rawDeltaBytes) deltaOps.length))

def handleSyncRequest (server : Party) (srv : Server V) (faults : ℕ → Option Fault) (draw : ServerDraw)
    (request : SyncPushRequest) : Server V × Except String SyncPullResponse :=
  if srv.config.nodeRegistrationRequired && (srv.getNodeStatus request.nodeId).isNone then
    (srv, .ok (errorResponse libs srv draw request
      s!"Node '{request.nodeId}' is not registered on this server"))
  else
    match unpackPush libs server request with
    | .error error => (srv, .ok (errorResponse libs srv draw request error))
    | .ok dicts =>
      let result := srv.pushLoop faults dicts
      match result.raised with
      | some exc =>
        (result.server, .ok (errorResponse libs srv draw request
          s!"Failed to unpack operations: {exc}"))
      | none => answer libs server result.server draw request result.processed

/-- `LoopbackTransport.send_receive` on a connected transport. -/
def sendReceive (server : Party) (srv : Server V) (faults : ℕ → Option Fault) (draw : ServerDraw)
    (requestBytes : Bytes) : Server V × LinkOutcome :=
  match SyncPushRequest.deserialize libs.requests draw.now requestBytes with
  | .error exc => (srv, .raised exc)
  | .ok req =>
    match handleSyncRequest libs server srv faults draw req with
    | (srv, .error exc) => (srv, .raised exc)
    | (srv, .ok resp) =>
      match resp.serialize libs.responses with
      | .error exc => (srv, .raised exc)
      | .ok respBytes => (srv, .response respBytes)

/-! ### What decoding gives -/

/-- The payload of a response as the engine reads it in step 7. -/
def pulledPayload (engine : Party) (encryptedPayload : Bytes) : Sealed V :=
  if encryptedPayload = [] then .empty
  else
    match engine.unpack libs encryptedPayload with
    | .error exc => .undecodable exc
    | .ok raw =>
      match libs.operations.unpack raw with
      | .error exc => .undecodable exc
      | .ok dicts => .packed dicts

def pulledResponse (engine : Party) (resp : SyncPullResponse) : Dhava.SyncPullResponse V where
  nodeId := resp.nodeId
  sessionId := resp.sessionId
  status := resp.status
  operationCount := resp.operationCount.toNat
  ackedOpIds := resp.ackedOpIds
  rejectedOpIds := resp.rejectedOpIds
  encryptedPayload := pulledPayload libs engine resp.encryptedPayload
  error := resp.error

/-- `transport_res.error or "Peer did not respond"`. -/
def transportError (error : String) : String := if error = "" then "Peer did not respond" else error

/-- What `sync_now` makes of the outcome of the exchange. -/
def received (engine : Party) (draw : Draw) : LinkOutcome → Exchange V
  | .noResponse => .failed (transportError "No response received from remote peer")
  | .raised exc => .failed (transportError exc)
  | .response respBytes =>
    match SyncPullResponse.deserialize libs.responses draw.now respBytes with
    | .error exc => .undecodable exc
    | .ok resp => .response (pulledResponse libs engine resp)

/-- What a session draws at its two ends. -/
structure SessionDraw where
  engine : Draw
  server : ServerDraw
  uuid : String

/-- `sync_now` of node `n` over a loopback transport to the server. -/
def sync (w : World V) (engine server : Party) (n sessionId : String) (bandwidthBps : ℤ) (now : ℚ)
    (draw : SessionDraw) : World V :=
  let e := (w.nodes n).engine
  let dicts := (e.pendingBatch bandwidthBps).map Operation.toDict
  let (srv, x) :=
    match pushBytes libs engine draw.engine e.nodeId sessionId draw.uuid
        e.globalVectorClock.clocks dicts with
    | .error exc => (w.server, Exchange.notSent exc)
    | .ok reqBytes =>
      let (srv, outcome) := sendReceive libs server w.server noFaults draw.server reqBytes
      (srv, received libs engine draw.engine outcome)
  let node := (w.nodes n).sync sessionId (some bandwidthBps) now noFaults x
  { server := srv, nodes := Function.update w.nodes n node }

/-- The parties of a world. -/
structure Fleet where
  engine : String → Party
  server : Party

inductive Event (V : Type)
  | call (n : String) (c : LocalCall V)
  | sync (n : String) (sessionId : String) (link : Option ℤ) (now : ℚ) (draw : SessionDraw)
  | register (now : ℚ) (nodeId : String)

/-- The event without what the bytes take. -/
def Event.decoded : Event V → WorldEvent V
  | .call n c => .call n c
  | .sync n sessionId link now draw => .sync n sessionId link now draw.server.readings
  | .register now nodeId => .register now nodeId

def step (fleet : Fleet) (w : World V) : Event V → World V
  | .sync n sessionId (some bandwidthBps) now draw =>
    sync libs w (fleet.engine n) fleet.server n sessionId bandwidthBps now draw
  | ev => w.step ev.decoded

/-- A registration, or bytes from anyone who reaches the server, with what the server draws. -/
inductive Call (V : Type)
  | register (now : ℚ) (nodeId : String) (publicKey : Option (List UInt8)) (metadata : Dict String V)
  | request (faults : ℕ → Option Fault) (draw : ServerDraw) (requestBytes : Bytes)

def serve (server : Party) (srv : Server V) : Call V → Server V
  | .register now nodeId publicKey metadata => srv.registerNode now nodeId publicKey metadata
  | .request faults draw requestBytes => (sendReceive libs server srv faults draw requestBytes).1

def reply (server : Party) (srv : Server V) : Call V → Option LinkOutcome
  | .register .. => none
  | .request faults draw requestBytes =>
    some (sendReceive libs server srv faults draw requestBytes).2

end Dhava.Wire
