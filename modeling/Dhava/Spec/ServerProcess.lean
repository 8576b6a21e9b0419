import Dhava.Foundations.Run
import Dhava.Spec.Registry

/-! A server database and the processes that serve it one after the other. `__init__` sets the
Lamport counter and the vector clock; the tables are on the disk. -/

namespace Dhava

open Foundations

/-- A call, or a new process. One that is killed in the push loop is a request that raises
there, whose response nobody reads, then a restart. -/
inductive ServerEvent (V : Type)
  | call (c : ServerCall V)
  | restart

variable {V : Type}

def ServerEvent.call? : ServerEvent V → Option (ServerCall V)
  | .call c => some c
  | .restart => none

namespace Server

/-- `DDILSyncServer(...)` with the arguments of the process before it. -/
def restart (srv : Server V) : Server V :=
  { srv with
    lamportCounter := 0
    globalVectorClock := VectorClock.ofDict ((∅ : Dict String ℤ).insert srv.serverNodeId 0) }

def step (srv : Server V) : ServerEvent V → Server V
  | .call c => srv.serve c
  | .restart => srv.restart

/-- What the caller gets. A new process sends nothing. -/
def output (srv : Server V) : ServerEvent V → Option (SyncPullResponse V)
  | .call c => srv.reply c
  | .restart => none

/-- The columns of a `sync_nodes` row that a sync writes. -/
structure Telemetry where
  registeredAt : ℚ
  lastSyncAt : Option ℚ
  lastSyncStatus : String
  totalOpsSynced : ℤ
  deriving DecidableEq

/-- What a new row starts with. -/
def Telemetry.fresh (now : ℚ) : Telemetry where
  registeredAt := now
  lastSyncAt := none
  lastSyncStatus := "never"
  totalOpsSynced := 0

def telemetry (srv : Server V) (nodeId : String) : Option Telemetry :=
  (srv.getNodeStatus nodeId).map fun row =>
    { registeredAt := row.registeredAt, lastSyncAt := row.lastSyncAt
      lastSyncStatus := row.lastSyncStatus, totalOpsSynced := row.totalOpsSynced }

end Server
end Dhava
