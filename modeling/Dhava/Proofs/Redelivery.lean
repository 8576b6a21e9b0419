import Dhava.Proofs.Request
import Dhava.Proofs.Tombstones

/-! The same request once more. The second pass meets the rows the first one left, so it
changes nothing exactly where the operation that ended up with a row is not superseded by
another one of the request: a delete by any write, a write by causality or last write wins. -/

namespace Dhava

open Foundations

variable {V : Type}

/-- `q` replaces the row that `o` wrote. -/
def Operation.Supersedes (plus : RoundedSum) (tolerance : ℚ) (q o : Operation V) : Prop :=
  if o.opType = .delete then q.opType ≠ .delete
  else VectorClock.ofDict o.vectorClock < VectorClock.ofDict q.vectorClock ∨
    (o.Concurrent q ∧ q.BeatsLww plus tolerance o)

namespace ConflictResolver

variable (self : ConflictResolver)

theorem accepts_written (existing : Option (Record V)) (o q : Operation V) :
    self.accepts (some (LocalStore.written existing o)) q = true ↔
      q.Supersedes self.plus self.clockSkewTolerance o := by
  unfold Operation.Supersedes
  split_ifs with hdel
  · exact self.accepts_tombstone (by simp [hdel]) q
  · rw [self.accepts_live (by simp [hdel])]
    exact Iff.rfl

/-- The operation that holds the row after `ops`, none where the row stays as it was. -/
def holder (row : Option (Record V)) (ops : List (Operation V)) : Option (Operation V) :=
  ops.foldl (fun held q =>
    if self.accepts (held.elim row fun o => some (LocalStore.written none o)) q then some q else held)
    none

theorem holder_concat (row : Option (Record V)) (ops : List (Operation V)) (q : Operation V) :
    self.holder row (ops ++ [q]) =
      if self.accepts ((self.holder row ops).elim row fun o => some (LocalStore.written none o)) q
      then some q else self.holder row ops := by
  rw [holder, List.foldl_append]
  rfl

/-- The row is the holder's. Without a holder it is the old one, and it refuses them all. -/
def HeldBy (row : Option (Record V)) (ops : List (Operation V)) (row' : Option (Record V)) :
    Option (Operation V) → Prop
  | none => row' = row ∧ ∀ q ∈ ops, self.accepts row q = false
  | some o => o ∈ ops ∧ ∃ existing, row' = some (LocalStore.written existing o)

theorem heldBy_holder (row : Option (Record V)) (ops : List (Operation V)) :
    self.HeldBy row ops (ops.foldl self.settle row) (self.holder row ops) := by
  induction ops using List.reverseRecOn with
  | nil => exact ⟨rfl, by simp⟩
  | append_singleton ops q ih =>
    rw [holder_concat, List.foldl_append, List.foldl_cons, List.foldl_nil]
    cases hheld : self.holder row ops with
    | none =>
      rw [hheld] at ih
      obtain ⟨hrow, hrefuse⟩ := ih
      rw [hrow, Option.elim_none, settle]
      split_ifs with hacc
      · exact ⟨by simp, row, rfl⟩
      · refine ⟨rfl, fun p hp => ?_⟩
        rcases List.mem_append.1 hp with hp | hp
        · exact hrefuse p hp
        · rw [List.mem_singleton.1 hp]
          exact Bool.eq_false_iff.2 hacc
    | some o =>
      rw [hheld] at ih
      obtain ⟨hmem, existing, hrow⟩ := ih
      have hsame : self.accepts (some (LocalStore.written existing o)) q =
          self.accepts (some (LocalStore.written none o)) q := by
        rw [Bool.eq_iff_iff, accepts_written, accepts_written]
      rw [hrow, Option.elim_some, settle, hsame]
      split_ifs with hacc
      · exact ⟨by simp, _, rfl⟩
      · exact ⟨by simp [hmem], existing, rfl⟩

/-- A second pass over a list leaves what the first one left exactly if no operation of the
list supersedes the holder of its row. -/
theorem second_pass_iff (s : LocalStore V) (ops : List (Operation V)) :
    ops.foldl self.process (ops.foldl self.process s) = ops.foldl self.process s ↔
      ∀ key o, self.holder (s.get key true) (ops.filter (·.key = key)) = some o →
        ∀ q ∈ ops, q.key = key → ¬ q.Supersedes self.plus self.clockSkewTolerance o := by
  rw [foldl_process_eq_self_iff]
  have hheld := fun key => self.heldBy_holder (s.get key true) (ops.filter (·.key = key))
  constructor
  · intro h key o ho q hq hkey hsup
    have hk := hheld key
    rw [ho] at hk
    obtain ⟨-, existing, hrow⟩ := hk
    have hacc := h q hq
    rw [get_foldl_process_filter, hkey, hrow, (self.accepts_written existing o q).2 hsup] at hacc
    cases hacc
  · intro h q hq
    have hk := hheld q.key
    rw [get_foldl_process_filter]
    cases ho : self.holder (s.get q.key true) (ops.filter (·.key = q.key)) with
    | none =>
      rw [ho] at hk
      obtain ⟨hrow, hrefuse⟩ := hk
      rw [hrow]
      exact hrefuse q (by simp [hq])
    | some o =>
      rw [ho] at hk
      obtain ⟨-, existing, hrow⟩ := hk
      rw [hrow, Bool.eq_false_iff]
      intro hacc
      exact h q.key o ho q hq rfl ((self.accepts_written existing o q).1 hacc)

end ConflictResolver

namespace Server

/-- Two answers to the same request acknowledge the same ids, and the second one leaves the
records as the first one did exactly if no operation of the request supersedes the one that
ended up with its row. -/
theorem redelivery_idempotent_iff (srv : Server V) (faults faults' : ℕ → Option Fault)
    (now now' : Readings) (req : SyncPushRequest V)
    (hfirst : (srv.handleSyncRequest faults now req).2.status = "ok")
    (hsecond : ((srv.handleSyncRequest faults now req).1.handleSyncRequest faults' now' req).2.status =
      "ok") :
    (((srv.handleSyncRequest faults now req).1.handleSyncRequest faults' now' req).2.ackedOpIds =
          (srv.handleSyncRequest faults now req).2.ackedOpIds ∧
        ((srv.handleSyncRequest faults now req).1.handleSyncRequest faults' now' req).1.localStore =
          (srv.handleSyncRequest faults now req).1.localStore) ↔
      ∀ key o, srv.conflictResolver.holder (srv.localStore.get key true)
          ((requestOps req).filter (·.key = key)) = some o →
        ∀ q ∈ requestOps req, q.key = key →
          ¬ q.Supersedes srv.conflictResolver.plus srv.conflictResolver.clockSkewTolerance o := by
  have h1 := srv.handleSyncRequest_ok faults now req hfirst
  have h2 := (srv.handleSyncRequest faults now req).1.handleSyncRequest_ok faults' now' req hsecond
  rw [h2.acked, ← h1.acked, h2.localStore, resolver_of_identity h1.identity, h1.localStore,
    and_iff_right rfl]
  exact srv.conflictResolver.second_pass_iff srv.localStore (requestOps req)

/-- The server holds an alert of node `b`. -/
def alertServer : Server ℕ :=
  ((Server.create "hq").pushOne none
    { (ConflictResolver.sampleUpdate "b" 0) with recordId := "alert" }).1

/-- A create, a merge into the record it made, and the delete of the alert. -/
def mixedRequest : SyncPushRequest ℕ where
  nodeId := "a"
  sessionId := "s"
  operationCount := 3
  senderVectorClock := (∅ : Dict String ℤ).insert "a" 3
  encryptedPayload := .packed
    [{ (ConflictResolver.sampleUpdate "a" 1) with opType := .create }.toDict,
      { (ConflictResolver.sampleUpdate "a" 2) with
        opId := "m", opType := .merge, vectorClock := (∅ : Dict String ℤ).insert "a" 2 }.toDict,
      { (ConflictResolver.sampleDelete "a" 3 (((∅ : Dict String ℤ).insert "a" 3).insert "b" 1)) with
        recordId := "alert" }.toDict]
  hashMatches := true

theorem redelivery_idempotent_example :
    let first := alertServer.handleSyncRequest noFaults 4 mixedRequest
    let second := first.1.handleSyncRequest noFaults ⟨5, 6, 7⟩ mixedRequest
    first.2.ackedOpIds = ["a", "m", "d"] ∧ second.2.ackedOpIds = first.2.ackedOpIds ∧
      second.1.localStore = first.1.localStore := by
  intro first second
  have hkept : ∀ q ∈ requestOps mixedRequest, ∀ o ∈ alertServer.conflictResolver.holder
      (alertServer.localStore.get q.key true) ((requestOps mixedRequest).filter (·.key = q.key)),
      alertServer.conflictResolver.accepts (some (LocalStore.written none o)) q = false := by
    decide +kernel
  refine ⟨by decide +kernel, ?_⟩
  refine (redelivery_idempotent_iff alertServer noFaults noFaults 4 ⟨5, 6, 7⟩ mixedRequest
    (by decide +kernel) (by decide +kernel)).2 fun key o ho q hq hkey => ?_
  subst hkey
  rw [← alertServer.conflictResolver.accepts_written none o q, hkept q hq o ho]
  exact Bool.false_ne_true

/-- A request with the create of a record and its delete, in the order of their clocks. -/
def createThenDelete : SyncPushRequest ℕ where
  nodeId := "a"
  sessionId := "s"
  operationCount := 2
  senderVectorClock := (∅ : Dict String ℤ).insert "a" 2
  encryptedPayload := .packed
    [{ (ConflictResolver.sampleUpdate "a" 0) with opType := .create }.toDict,
      (ConflictResolver.sampleDelete "a" 1 ((∅ : Dict String ℤ).insert "a" 2)).toDict]
  hashMatches := true

/-- Both deliveries are answered `ok`. The second create goes over the tombstone of the
first delete, and the second delete over that: the version goes from 2 to 4. -/
theorem redelivered_delete_bumps_version :
    let srv : Server ℕ := Server.create "hq"
    let first := srv.handleSyncRequest noFaults 0 createThenDelete
    let second := first.1.handleSyncRequest noFaults 1 createThenDelete
    first.2.status = "ok" ∧ second.2.status = "ok" ∧
      (first.1.localStore.get ("incidents", "r") true).map Record.version = some 2 ∧
      (second.1.localStore.get ("incidents", "r") true).map Record.version = some 4 := by
  decide +kernel

end Server
end Dhava
