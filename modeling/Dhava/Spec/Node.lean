import Dhava.Spec.Engine

/-! A node with its history: what its calls enqueued, which ids processed responses
listed as acknowledged, and which pulled operations went through `resolve`. The history is
recorded beside the engine and no step reads it. -/

namespace Dhava

variable {V : Type}

namespace Exchange

/-- The exits of `sync_now` that mark the batch failed. -/
def marksFailed : Exchange V → Bool
  | .failed _ => true
  | .response resp => resp.status = "error"
  | _ => false

/-- The response, where there is one and its status is not `error`. -/
def accepted : Exchange V → Option (SyncPullResponse V)
  | .response resp => if resp.status = "error" then none else some resp
  | _ => none

end Exchange

/-- The pull loop of a session. Without a processed response nothing is pulled. -/
def Engine.pulled (e : Engine V) (sessionId : String) (link : Option ℤ) (now : ℚ)
    (faults : ℕ → Option Fault) (x : Exchange V) : PullResult V :=
  match link, x.accepted with
  | some bandwidthBps, some resp =>
    match unpackResponse resp with
    | .ok dicts =>
      let e := (e.beginSync sessionId bandwidthBps).1
      { e with outbox := e.outbox.markSynced resp.ackedOpIds now }.pullLoop faults dicts
    | .error _ => ⟨e, {}, [], none⟩
  | _, _ => ⟨e, {}, [], none⟩

/-- `issued` pairs an operation with the record its call returned. -/
structure Node (V : Type) where
  engine : Engine V
  issued : List (Operation V × Record V) := []
  acked : List String := []
  processed : List (Operation V) := []

/-- A call of the application, or a `sync_now` with all its environment decides: the
bandwidth estimate, the storage faults of the pull loop and the outcome of the exchange. -/
inductive NodeEvent (V : Type)
  | call (c : LocalCall V)
  | sync (sessionId : String) (link : Option ℤ) (now : ℚ) (faults : ℕ → Option Fault)
      (x : Exchange V)

namespace Node

def create (nodeId : String) (config : EngineConfig := {}) : Node V where
  engine := Engine.create nodeId config

def call (node : Node V) (c : LocalCall V) : Node V :=
  match node.engine.call c with
  | (engine, .ok issued) => { node with engine, issued := node.issued ++ [issued] }
  | (engine, .error _) => { node with engine }

def sync (node : Node V) (sessionId : String) (link : Option ℤ) (now : ℚ)
    (faults : ℕ → Option Fault) (x : Exchange V) : Node V :=
  let acks := match link, x.accepted with
    | some _, some resp => resp.ackedOpIds
    | _, _ => []
  { node with
    engine := (node.engine.syncNow sessionId link now faults fun _ => x).1
    acked := node.acked ++ acks
    processed := node.processed ++ (node.engine.pulled sessionId link now faults x).processed }

def step (node : Node V) : NodeEvent V → Node V
  | .call c => node.call c
  | .sync sessionId link now faults x => node.sync sessionId link now faults x

/-- The operations a node's calls enqueued. -/
def ops (node : Node V) : List (Operation V) := node.issued.map Prod.fst

end Node
end Dhava
