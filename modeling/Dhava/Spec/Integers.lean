import Dhava.Spec.LocalWrite
import Dhava.Spec.Persistence
import Dhava.Spec.Server

/-! The integer columns. `sqlite3` binds a Python integer as a signed 64-bit one and raises
where it is none. `apply_operation` binds a version this way, `enqueue` a Lamport timestamp. -/

namespace Dhava

variable {V : Type}

/-- How a statement with this parameter ends. -/
def TxEnd.binding (n : ℤ) : TxEnd :=
  match SqlValue.bindInteger n with
  | .ok _ => .committed
  | .error exc => .raised exc

/-- The fault of a loop iteration that binds this version, if it binds one. -/
def Fault.binding (version : Option ℤ) (fault : Option Fault) : Option Fault :=
  match version.map SqlValue.bindInteger with
  | some (.error exc) => some (.store exc)
  | _ => fault

/-- The faults of a loop over dictionaries: `meets` makes one of the environment's fault and
of the integers that the iteration binds. -/
def Fault.inLoop {σ : Type} (meets : σ → Option Fault → Operation V → Option Fault)
    (iterate : σ → Option Fault → Operation V → σ × Option String) (s : σ)
    (faults : ℕ → Option Fault) : List (OpDict V) → ℕ → Option Fault
  | [], i => faults i
  | opDict :: rest, i =>
    match Operation.fromDict opDict, i with
    | .error _, i => faults i
    | .ok op, 0 => meets s (faults 0) op
    | .ok op, i + 1 =>
      Fault.inLoop meets iterate (iterate s (meets s (faults 0) op) op).1 (fun i => faults (i + 1)) rest i

/-- The version `apply_operation` binds. -/
def LocalStore.boundVersion (s : LocalStore V) (op : Operation V) : ℤ :=
  nextVersion (s.get op.key true) op

/-- What happens to the counters of an engine: a call, a call that raises when it reads the
stored clock, or an iteration of the pull loop. -/
inductive CounterEvent (V : Type)
  | call (c : LocalCall V)
  | refuse (c : LocalCall V) (exc : String)
  | pull (fault : Option Fault) (remoteOp : Operation V)

namespace Engine

def callBinding (e : Engine V) (c : LocalCall V) : Engine V × CallEnd V :=
  let op := (e.stamp c).2
  e.callUnder c fun
    | .apply => .binding (e.localStore.boundVersion op)
    | .enqueue => .binding op.lamportTimestamp
    | _ => .committed

/-- Whether an iteration of the pull loop gets to `apply_operation`. -/
def pullApplies (e : Engine V) (fault : Option Fault) (remoteOp : Operation V) : Bool :=
  match fault with
  | some (.read _) => false
  | _ => (e.conflictResolver.resolve (e.localStore.get remoteOp.key true) remoteOp).applies

def pullBinds (e : Engine V) (fault : Option Fault) (remoteOp : Operation V) : Option ℤ :=
  if e.pullApplies fault remoteOp then some (e.localStore.boundVersion remoteOp) else none

def pullMeets (e : Engine V) (fault : Option Fault) (remoteOp : Operation V) : Option Fault :=
  Fault.binding (e.pullBinds fault remoteOp) fault

def pullLoopBinding (e : Engine V) (faults : ℕ → Option Fault) (dicts : List (OpDict V)) :
    PullResult V :=
  e.pullLoop (Fault.inLoop pullMeets pullOne e faults dicts) dicts

def count (e : Engine V) : CounterEvent V → Engine V
  | .call c => (e.callBinding c).1
  | .refuse c exc => (e.callUnder c fun _ => .raised exc).1
  | .pull fault remoteOp => (e.pullOne (e.pullMeets fault remoteOp) remoteOp).1

/-- The versions and Lamport timestamps an event tries to write. A call whose version is
refused does not get to `enqueue`. -/
def binds (e : Engine V) : CounterEvent V → List ℤ
  | .call c =>
    let op := (e.stamp c).2
    let version := e.localStore.boundVersion op
    if SqlValue.fitsInteger version then [version, op.lamportTimestamp] else [version]
  | .refuse .. => []
  | .pull fault remoteOp => (e.pullBinds fault remoteOp).toList

end Engine

namespace Server

/-- Whether an iteration of the push loop gets to `apply_operation`, after the audit entry. -/
def pushApplies (srv : Server V) (fault : Option Fault) (op : Operation V) : Bool :=
  let resolution := srv.conflictResolver.resolve (srv.localStore.get op.key true) op
  match fault with
  | some (.read _) => false
  | some (.audit _) =>
    resolution.applies && !(resolution.comparison = some .concurrent && srv.config.auditEnabled)
  | _ => resolution.applies

def pushBinds (srv : Server V) (fault : Option Fault) (op : Operation V) : Option ℤ :=
  if srv.pushApplies fault op then some (srv.localStore.boundVersion op) else none

def pushMeets (srv : Server V) (fault : Option Fault) (op : Operation V) : Option Fault :=
  Fault.binding (srv.pushBinds fault op) fault

def pushLoopBinding (srv : Server V) (faults : ℕ → Option Fault) (dicts : List (OpDict V)) :
    PushResult V :=
  srv.pushLoop (Fault.inLoop pushMeets pushOne srv faults dicts) dicts

/-- One operation of a request. The Lamport counter of a server is never written. -/
def count (srv : Server V) (ev : Option Fault × Operation V) : Server V :=
  (srv.pushOne (srv.pushMeets ev.1 ev.2) ev.2).1

def binds (srv : Server V) (ev : Option Fault × Operation V) : List ℤ :=
  (srv.pushBinds ev.1 ev.2).toList

end Server
end Dhava
