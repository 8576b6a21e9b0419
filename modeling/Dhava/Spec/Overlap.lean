import Dhava.Spec.Node

/-! Several `sync_now` calls on one engine, step by step: the outbox they share, and where
each of them stands. What a pull does to the records plays no part here. -/

namespace Dhava

variable {V : Type}

/-- Where a call stands. It is open between its lock and its unlock. An exception on the way
to the lock leaves it `aborted`: the `finally` block unlocks all the same. -/
inductive Phase (V : Type)
  | ready
  | aborted
  | locked
  | batched (pendingOps : List (Operation V))
  | exchanged (pendingOps : List (Operation V)) (x : Exchange V)
  | closing (pendingOps : List (Operation V))
  | done

namespace Phase

def isOpen : Phase V → Bool
  | .ready | .aborted | .done => false
  | _ => true

/-- The batch of a call, as far as it has one. -/
def batch : Phase V → List (Operation V)
  | .batched pendingOps | .exchanged pendingOps _ | .closing pendingOps => pendingOps
  | _ => []

end Phase

structure Overlap (V : Type) where
  outbox : OutboxQueue V
  session : ℕ → Phase V := fun _ => .ready

inductive OverlapEvent (V : Type)
  | enqueue (op : Operation V)
  | lock (i : ℕ)
  | getPending (i : ℕ) (limit : ℤ) (maxPriority : Priority)
  | exchange (i : ℕ) (x : Exchange V)
  | mark (i : ℕ) (now : ℚ)
  | raise (i : ℕ)
  | unlock (i : ℕ)

/-- What the outcome of an exchange makes of the outbox. -/
def OutboxQueue.markOutcome (q : OutboxQueue V) (pendingOps : List (Operation V)) (now : ℚ) :
    Exchange V → OutboxQueue V
  | .notSent _ | .undecodable _ => q
  | .failed error => q.markFailed (pendingOps.map Operation.opId) error
  | .response resp =>
    if resp.status = "error" then
      q.markFailed (pendingOps.map Operation.opId) resp.errMsg
    else q.markSynced resp.ackedOpIds now

namespace Overlap

/-- Call `i` takes one step. -/
def move (o : Overlap V) (i : ℕ) (outbox : OutboxQueue V) (phase : Phase V) : Overlap V :=
  { outbox, session := Function.update o.session i phase }

/-- An event that does not fit where the call stands does nothing. The value of
`outbox.lock()` is not looked at. -/
def step (o : Overlap V) : OverlapEvent V → Overlap V
  | .enqueue op =>
    match o.outbox.enqueue op with
    | .ok outbox => { o with outbox }
    | .error _ => o
  | .lock i =>
    match o.session i with
    | .ready => o.move i o.outbox.lock.1 .locked
    | _ => o
  | .getPending i limit maxPriority =>
    match o.session i with
    | .locked => o.move i o.outbox (.batched (o.outbox.getPending limit none (some maxPriority)))
    | _ => o
  | .exchange i x =>
    match o.session i with
    | .batched pendingOps => o.move i o.outbox (.exchanged pendingOps x)
    | _ => o
  | .mark i now =>
    match o.session i with
    | .exchanged pendingOps x => o.move i (o.outbox.markOutcome pendingOps now x) (.closing pendingOps)
    | _ => o
  | .raise i =>
    match o.session i with
    | .ready => o.move i o.outbox .aborted
    | .locked => o.move i o.outbox (.closing [])
    | .batched pendingOps | .exchanged pendingOps _ => o.move i o.outbox (.closing pendingOps)
    | _ => o
  | .unlock i =>
    match o.session i with
    | .aborted | .closing _ => o.move i o.outbox.unlock .done
    | _ => o

/-- The steps of a call that meets nobody are those of `sync_now`. -/
def script (i : ℕ) (limit : ℤ) (maxPriority : Priority) (x : Exchange V) (now : ℚ) :
    List (OverlapEvent V) :=
  [.lock i, .getPending i limit maxPriority, .exchange i x, .mark i now, .unlock i]

end Overlap
end Dhava
