import Dhava.Spec.Node
import Dhava.Spec.Server

/-! One engine and one server over a channel that loses, delays and repeats messages in
both directions but makes none up. Sessions may overlap: the value of `outbox.lock()` is
not looked at. A process can die between any two statements, with its database kept. -/

namespace Dhava

open Foundations

/-- `sessions` are the batches of sessions that wait for a reply. `enqueued` and `completed`
record what was enqueued and which loop iterations the server has completed. -/
structure Net (V : Type) where
  engine : Engine V
  sessions : List (List (Operation V)) := []
  server : Server V
  requests : List (SyncPushRequest V) := []
  responses : List (SyncPullResponse V) := []
  enqueued : List (Operation V) := []
  completed : List (Operation V) := []

/-- How a session's exchange ends: no reply or a transport error, bytes that do not
deserialize, or any response the server has sent so far. -/
inductive Reply
  | lost (error : String)
  | garbled (exc : String)
  | delivered (k : ℕ)

inductive NetEvent (V : Type)
  | call (c : LocalCall V)
  /-- The process dies after `apply_operation`, before `enqueue`. -/
  | dieInCall (c : LocalCall V)
  | noTransport
  | sendRaises (bandwidthBps : ℤ) (exc : String)
  | send (sessionId : String) (bandwidthBps : ℤ)
  | serve (i : ℕ) (faults : ℕ → Option Fault) (now : Readings)
  | receive (j : ℕ) (now : ℚ) (faults : ℕ → Option Fault) (reply : Reply)
  | restart
  | purge (now : ℚ) (olderThanSeconds : ℚ)
  | register (now : ℚ) (nodeId : String)

variable {V : Type}

namespace Net

/-- A new engine and any server. -/
def init (nodeId : String) (config : EngineConfig) (server : Server V) : Net V where
  engine := Engine.create nodeId config
  server

def call (net : Net V) (c : LocalCall V) : Net V :=
  match net.engine.call c with
  | (engine, .ok (op, _)) => { net with engine, enqueued := net.enqueued ++ [op] }
  | (engine, .error _) => { net with engine }

def send (net : Net V) (sessionId : String) (bandwidthBps : ℤ) : Net V :=
  let (engine, pendingOps, pushReq) := net.engine.beginSync sessionId bandwidthBps
  { net with engine, sessions := net.sessions ++ [pendingOps], requests := net.requests ++ [pushReq] }

/-- A request reaches the server, for the first time or again. -/
def serve (net : Net V) (i : ℕ) (faults : ℕ → Option Fault) (now : Readings) : Net V :=
  match net.requests[i]? with
  | none => net
  | some req =>
    let (server, resp) := net.server.handleSyncRequest faults now req
    { net with
      server, responses := net.responses ++ [resp]
      completed := net.completed ++ net.server.completedBy faults req }

/-- The exchange of an open session ends. -/
def receive (net : Net V) (j : ℕ) (now : ℚ) (faults : ℕ → Option Fault) (reply : Reply) : Net V :=
  let exchange : Option (Exchange V) := match reply with
    | .lost error => some (.failed error)
    | .garbled exc => some (.undecodable exc)
    | .delivered k => net.responses[k]?.map .response
  match net.sessions[j]?, exchange with
  | some pendingOps, some x =>
    { net with
      engine := (net.engine.finishSync pendingOps now faults x).1
      sessions := net.sessions.eraseIdx j }
  | _, _ => net

def step (net : Net V) : NetEvent V → Net V
  | .call c => net.call c
  | .dieInCall c =>
    let (engine, op) := net.engine.stamp c
    { net with engine := (engine.applyLocal op).1.restart, sessions := [] }
  | .noTransport => { net with engine := (net.engine.syncNow "" none 0 noFaults fun _ => .failed "").1 }
  | .sendRaises bandwidthBps exc =>
    { net with
      engine := (net.engine.syncNow "" (some bandwidthBps) 0 noFaults fun _ => .notSent exc).1 }
  | .send sessionId bandwidthBps => net.send sessionId bandwidthBps
  | .serve i faults now => net.serve i faults now
  | .receive j now faults reply => net.receive j now faults reply
  | .restart => { net with engine := net.engine.restart, sessions := [] }
  | .purge now older =>
    { net with engine := { net.engine with outbox := net.engine.outbox.purgeSynced now older } }
  | .register now nodeId => { net with server := net.server.registerNode now nodeId }

/-- The id a call draws is not that of an earlier operation. -/
def Fresh (net : Net V) : NetEvent V → Prop
  | .call c => ∀ op ∈ net.enqueued, op.opId ≠ c.opId
  | _ => True

instance (net : Net V) (ev : NetEvent V) : Decidable (net.Fresh ev) := by
  cases ev <;> unfold Fresh <;> infer_instance

end Net
end Dhava
