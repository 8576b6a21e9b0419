import Dhava.Spec.Node
import Dhava.Spec.Server

/-! One server and any number of nodes over an honest transport: a sync is one exchange, in
which the server gets what the engine sent and the engine what the server answered. -/

namespace Dhava

variable {V : Type}

structure World (V : Type) where
  server : Server V
  nodes : String → Node V

/-- A local call at a node, a `sync_now` of a node, or a registration at the server. A sync
has the bandwidth estimate of the link, `none` without one, and the clock readings at each end. -/
inductive WorldEvent (V : Type)
  | call (n : String) (c : LocalCall V)
  | sync (n : String) (sessionId : String) (link : Option ℤ) (now : ℚ) (serverNow : Readings)
  | register (now : ℚ) (nodeId : String)

namespace World

/-- A new server and new engines, each under its own node id. -/
def init (serverNodeId : String) (resolver : ConflictResolver) (serverConfig : ServerConfig)
    (config : String → EngineConfig) : World V where
  server := Server.new serverNodeId resolver serverConfig
  nodes n := Node.create n (config n)

/-- The request a node sends. -/
def request (w : World V) (n : String) (sessionId : String) (bandwidthBps : ℤ) : SyncPushRequest V :=
  ((w.nodes n).engine.beginSync sessionId bandwidthBps).2.2

def sync (w : World V) (n : String) (sessionId : String) (link : Option ℤ) (now : ℚ)
    (serverNow : Readings) : World V :=
  match link with
  | none =>
    let node := (w.nodes n).sync sessionId none now noFaults (.failed "No transport")
    { w with nodes := Function.update w.nodes n node }
  | some bandwidthBps =>
    let (server, resp) :=
      w.server.handleSyncRequest noFaults serverNow (w.request n sessionId bandwidthBps)
    let node := (w.nodes n).sync sessionId (some bandwidthBps) now noFaults (.response resp)
    { server, nodes := Function.update w.nodes n node }

def step (w : World V) : WorldEvent V → World V
  | .call n c => { w with nodes := Function.update w.nodes n ((w.nodes n).call c) }
  | .sync n sessionId link now serverNow => w.sync n sessionId link now serverNow
  | .register now nodeId => { w with server := w.server.registerNode now nodeId }

/-- The id a call draws is not that of an earlier operation of the node. -/
def Fresh (w : World V) : WorldEvent V → Prop
  | .call n c => ∀ op ∈ (w.nodes n).ops, op.opId ≠ c.opId
  | _ => True

instance (w : World V) : (ev : WorldEvent V) → Decidable (w.Fresh ev)
  | .call n c => inferInstanceAs (Decidable (∀ op ∈ (w.nodes n).ops, op.opId ≠ c.opId))
  | .sync .. => inferInstanceAs (Decidable True)
  | .register .. => inferInstanceAs (Decidable True)

end World
end Dhava
