import Dhava.Spec.Node

/-! The background worker of an engine (`_background_loop` of `engine.py`). A pass probes the
transports, syncs where something waits, and purges from time to time. What its calls raise and
the clock readings are arguments. The transports with all that is behind them are a world of any
type, which `exchange` may change; the wait between two passes is left out. -/

namespace Dhava

variable {V W : Type}

/-- The worker with the node it runs for and the world its requests go to. `sessions` are the ids
of the sessions started. -/
structure Daemon (V W : Type) where
  node : Node V
  world : W
  sessions : List String := []
  lastPurge : ℚ
  purgeSyncedAfterSeconds : ℚ := 2592000

/-- What one pass does not decide itself: whether a transport is active, what the count, the
purge and the probe of `sync_now` raise, the id, the link and the faults of the session, and the
readings of the clock. -/
structure Pass where
  active : Except String Bool
  countRaises : Option String := none
  syncRaises : Option String := none
  sessionId : String
  link : Option ℤ
  now : ℚ
  faults : ℕ → Option Fault
  checkedAt : ℚ
  purgeRaises : Option String := none
  purgedAt : ℚ
  notedAt : ℚ

/-- A call of the application, a `sync_now` of the application, a pass, or `start`. -/
inductive DaemonEvent (V : Type)
  | call (c : LocalCall V)
  | sync (sessionId : String) (link : Option ℤ) (now : ℚ) (faults : ℕ → Option Fault)
  | pass (p : Pass)
  | start (now : ℚ)

namespace Daemon

def create (nodeId : String) (config : EngineConfig) (world : W)
    (purgeSyncedAfterSeconds lastPurge : ℚ) : Daemon V W where
  node := Node.create nodeId config
  world
  lastPurge
  purgeSyncedAfterSeconds

def setState (d : Daemon V W) (state : EngineState) : Daemon V W :=
  { d with node.engine.state := state }

def started (d : Daemon V W) (sessionId : String) : Daemon V W :=
  { d with sessions := d.sessions ++ [sessionId] }

variable (exchange : SyncPushRequest V → W → Exchange V × W)

/-- `sync_now`. Without a link no request is made. -/
def syncNow (d : Daemon V W) (sessionId : String) (link : Option ℤ) (now : ℚ)
    (faults : ℕ → Option Fault) : Daemon V W :=
  let (x, world) :=
    match link with
    | none => (.notSent "No active transport available", d.world)
    | some bandwidthBps => exchange (d.node.engine.beginSync sessionId bandwidthBps).2.2 d.world
  { d.started sessionId with node := d.node.sync sessionId link now faults x, world }

/-- The transports and the outbox: what is left, and the exception that ends it. -/
def monitor (d : Daemon V W) (p : Pass) : Daemon V W × Option String :=
  match p.active with
  | .error exc => (d, some exc)
  | .ok false => (d.setState .disconnected, none)
  | .ok true =>
    let d := if d.node.engine.state = .disconnected then d.setState .connected else d
    match p.countRaises with
    | some exc => (d, some exc)
    | none =>
      if d.node.engine.outbox.pendingCount > 0 then
        match p.syncRaises with
        | some exc => (d.started p.sessionId, some exc)
        | none => (d.syncNow exchange p.sessionId p.link p.now p.faults, none)
      else (d, none)

/-- The retention purge, at most once an hour. -/
def purge (d : Daemon V W) (p : Pass) : Daemon V W × Option String :=
  if p.checkedAt - d.lastPurge > 3600 then
    match p.purgeRaises with
    | some exc => (d, some exc)
    | none =>
      let outbox := d.node.engine.outbox.purgeSynced p.purgedAt d.purgeSyncedAfterSeconds
      ({ d with node.engine.outbox := outbox, lastPurge := p.notedAt }, none)
  else (d, none)

/-- The `except` clause. -/
def note (d : Daemon V W) (raised : Option String) : Daemon V W :=
  match raised with
  | some exc => { d with node.engine.lastError := some exc }
  | none => d

def pass (d : Daemon V W) (p : Pass) : Daemon V W :=
  match d.monitor exchange p with
  | (d, some exc) => d.note (some exc)
  | (d, none) =>
    let (d, raised) := d.purge p
    d.note raised

def step (d : Daemon V W) : DaemonEvent V → Daemon V W
  | .call c => { d with node := d.node.call c }
  | .sync sessionId link now faults => d.syncNow exchange sessionId link now faults
  | .pass p => d.pass exchange p
  | .start now => { d with lastPurge := now }

end Daemon
end Dhava
