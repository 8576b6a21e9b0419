import Dhava.Spec.LocalWrite
import Dhava.Spec.Node

/-! A database and the processes that open it one after the other. A process takes its Lamport
counter from nothing on the disk: `__init__` sets it to 0. -/

namespace Dhava

variable {V : Type}

/-- One thing a process has handled: the operation a call created, a call that raised while
it read the stored clock and so created none, or an operation the pull loop came to. -/
inductive Handled (V : Type)
  | created (op : Operation V)
  | refused
  | received (op : Operation V)

def Handled.op : Handled V → Option (Operation V)
  | .created op => some op
  | .refused => none
  | .received op => some op

/-- The process that has the database open, with the operations of those before it and what
it has handled itself, in order. The history is recorded beside the engine. -/
structure Lifetime (V : Type) where
  engine : Engine V
  earlier : List (Operation V) := []
  current : List (Handled V) := []

/-- A call with the ends of its statements, a `sync_now` with all its environment decides, or a
new process. One that is killed during a call is a call that stops, then a restart. -/
inductive LifetimeEvent (V : Type)
  | call (c : LocalCall V) (ends : WriteStep → TxEnd)
  | sync (sessionId : String) (link : Option ℤ) (now : ℚ) (faults : ℕ → Option Fault)
      (x : Exchange V)
  | restart

namespace Lifetime

/-- A new process on a database with a history. -/
def boot (nodeId : String) (config : EngineConfig) (localStore : LocalStore V)
    (outbox : OutboxQueue V) (audit : List AuditEntry) (earlier : List (Operation V)) :
    Lifetime V where
  engine := Engine.boot nodeId config localStore outbox audit
  earlier

/-- The first process on a new database. -/
def create (nodeId : String) (config : EngineConfig := {}) : Lifetime V :=
  boot nodeId config (LocalStore.empty config.platform.ties) OutboxQueue.empty [] []

/-- Every operation the node has created or received. -/
def ops (l : Lifetime V) : List (Operation V) := l.earlier ++ l.current.filterMap Handled.op

def call (l : Lifetime V) (c : LocalCall V) (ends : WriteStep → TxEnd) : Lifetime V :=
  { l with
    engine := (l.engine.callUnder c ends).1
    current := l.current ++
      [if ends .readClock = .committed then .created (l.engine.stamp c).2 else .refused] }

def sync (l : Lifetime V) (sessionId : String) (link : Option ℤ) (now : ℚ)
    (faults : ℕ → Option Fault) (x : Exchange V) : Lifetime V :=
  { l with
    engine := (l.engine.syncNow sessionId link now faults fun _ => x).1
    current := l.current ++
      (l.engine.pulled sessionId link now faults x).processed.map .received }

def restart (l : Lifetime V) : Lifetime V where
  engine := l.engine.restart
  earlier := l.ops

def step (l : Lifetime V) : LifetimeEvent V → Lifetime V
  | .call c ends => l.call c ends
  | .sync sessionId link now faults x => l.sync sessionId link now faults x
  | .restart => l.restart

end Lifetime
end Dhava
