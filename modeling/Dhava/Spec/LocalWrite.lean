import Dhava.Spec.Engine

/-! A local call on a database that can fail. `apply_operation`, `enqueue` and the audit
entry go through a transaction each, and the process can stop between any two statements. -/

namespace Dhava

open Foundations

/-- How a statement or a transaction of the call ends. An exception rolls it back. -/
inductive TxEnd
  | committed
  | raised (exc : String)
  | stopped (afterCommit : Bool)
  deriving DecidableEq

def TxEnd.commits : TxEnd → Bool
  | .committed => true
  | .raised _ => false
  | .stopped b => b

inductive WriteStep
  | readClock | apply | enqueue | audit
  deriving DecidableEq

inductive CallEnd (V : Type)
  | returned (op : Operation V) (record : Record V)
  | raised (exc : String)
  | stopped

namespace Engine

variable {V : Type}

/-- The audit entry of a call, its last step. -/
def auditUnder (e : Engine V) (op : Operation V) (record : Record V) (audit : TxEnd) :
    Engine V × CallEnd V :=
  if e.config.auditEnabled then
    match audit with
    | .committed => (e.auditLocalWrite op, .returned op record)
    | .raised exc => (e, .raised exc)
    | .stopped afterCommit => (if afterCommit then e.auditLocalWrite op else e, .stopped)
  else (e, .returned op record)

/-- The call from `enqueue` on. A taken id raises before the commit. -/
def enqueueUnder (e : Engine V) (op : Operation V) (record : Record V) (enqueue audit : TxEnd) :
    Engine V × CallEnd V :=
  match enqueue, e.outbox.enqueue op with
  | .raised exc, _ => (e, .raised exc)
  | .stopped false, _ => (e, .stopped)
  | _, .error exc => (e, .raised exc)
  | .stopped true, .ok outbox => ({ e with outbox }, .stopped)
  | .committed, .ok outbox => { e with outbox }.auditUnder op record audit

/-- The common body of create, update, merge and delete. Where the process stops, the
engine is what it had in memory, with the tables as they are on the disk. -/
def callUnder (e : Engine V) (c : LocalCall V) (ends : WriteStep → TxEnd) : Engine V × CallEnd V :=
  match ends .readClock with
  | .raised exc => ({ e with lamportCounter := e.lamportCounter + 1 }, .raised exc)
  | .stopped _ => ({ e with lamportCounter := e.lamportCounter + 1 }, .stopped)
  | .committed =>
    let (e, op) := e.stamp c
    let (applied, record) := e.applyLocal op
    match ends .apply with
    | .raised exc => (e, .raised exc)
    | .stopped afterCommit => (if afterCommit then applied else e, .stopped)
    | .committed => applied.enqueueUnder op record (ends .enqueue) (ends .audit)

/-- Where nothing fails this is the call. -/
theorem callUnder_committed (e : Engine V) (c : LocalCall V) :
    (e.callUnder c fun _ => .committed) = ((e.call c).1,
      match (e.call c).2 with
      | .ok (op, record) => .returned op record
      | .error exc => .raised exc) := by
  rw [call_eq_write]
  unfold callUnder write enqueueUnder
  simp only
  cases h : (((e.stamp c).1.applyLocal (e.stamp c).2).1.outbox.enqueue (e.stamp c).2) with
  | error exc => rfl
  | ok outbox =>
    simp only [auditUnder]
    by_cases haudit : ((e.stamp c).1.applyLocal (e.stamp c).2).1.config.auditEnabled = true
    · rw [if_pos haudit]
    · rw [if_neg haudit, auditLocalWrite, if_neg haudit]

end Engine
end Dhava
