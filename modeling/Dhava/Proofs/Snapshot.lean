import Dhava.Proofs.LwwOrder
import Dhava.Proofs.Session
import Dhava.Spec.Server

/-! What a row of the server becomes at a client. The delta turns the row back into an
operation: an update that carries the whole record, or a delete that carries its clock. -/

namespace Dhava

open Foundations

variable {V : Type}

namespace Server

@[simp] theorem key_snapshotOp (now : ℚ) (rec : Record V) : (snapshotOp now rec).key = rec.key := rfl

@[simp] theorem vectorClock_snapshotOp (now : ℚ) (rec : Record V) :
    (snapshotOp now rec).vectorClock = rec.vectorClock := rfl

theorem opType_snapshotOp (now : ℚ) (rec : Record V) :
    (snapshotOp now rec).opType = if rec.deleted then .delete else .update := rfl

theorem content_written_snapshotOp (existing : Option (Record V)) (now : ℚ) {rec : Record V}
    (hlive : rec.deleted = false) :
    (LocalStore.written existing (snapshotOp now rec)).content = rec.content := by
  have hu : (snapshotOp now rec).opType = .update := by rw [opType_snapshotOp, hlive]; rfl
  simp only [Record.content, LocalStore.data_written, LocalStore.writtenData, hu]
  rfl

end Server

namespace ConflictResolver

open Server

/-- A snapshot of a row newer than the stored one takes its place, unless both are gone. -/
theorem accepts_snapshotOp (self : ConflictResolver) {row : Option (Record V)} (now : ℚ)
    {rec : Record V}
    (hold : ∀ r, row = some r →
      VectorClock.ofDict r.vectorClock < VectorClock.ofDict rec.vectorClock) :
    self.accepts row (snapshotOp now rec) = true ↔
      rec.deleted = false ∨ ∃ r, row = some r ∧ r.deleted = false := by
  have hdel : (snapshotOp now rec).opType ≠ .delete ↔ rec.deleted = false := by
    rw [opType_snapshotOp]
    cases rec.deleted <;> simp
  rcases row with - | r
  · rw [self.accepts_none, hdel]
    simp
  · cases hr : r.deleted with
    | true =>
      rw [self.accepts_tombstone hr, hdel]
      simp [hr]
    | false =>
      rw [self.accepts_live hr]
      exact iff_of_true (Or.inl (hold r rfl)) (Or.inr ⟨r, rfl, hr⟩)

/-- What is left to see of the row: nothing of a deleted record, the content of a live one. -/
theorem live_settle_snapshotOp (self : ConflictResolver) {row : Option (Record V)} (now : ℚ)
    {rec : Record V}
    (hold : ∀ r, row = some r →
      VectorClock.ofDict r.vectorClock < VectorClock.ofDict rec.vectorClock) :
    ((self.settle row (snapshotOp now rec)).filter fun r => !r.deleted).map Record.content =
      if rec.deleted then none else some rec.content := by
  have hacc := self.accepts_snapshotOp now hold
  have hwritten : (LocalStore.written row (snapshotOp now rec)).deleted = rec.deleted := by
    rw [LocalStore.deleted_written, opType_snapshotOp]
    cases rec.deleted <;> rfl
  unfold settle
  cases hrec : rec.deleted with
  | true =>
    rw [if_pos rfl, Option.map_eq_none_iff]
    by_cases h : self.accepts row (snapshotOp now rec) = true
    · rw [if_pos h, Option.filter_some, hwritten, hrec]
      rfl
    · -- a discarded delete: the client had no live row either
      rw [if_neg h]
      rcases row with - | r
      · rfl
      · have hr : r.deleted = true := by
          by_contra hlive
          exact h (hacc.2 (Or.inr ⟨r, rfl, Bool.eq_false_iff.2 hlive⟩))
        rw [Option.filter_some, hr]
        rfl
  | false =>
    rw [if_pos (hacc.2 (Or.inl hrec)), Option.filter_some, hwritten, hrec]
    exact congrArg some (content_written_snapshotOp row now hrec)

end ConflictResolver

namespace Engine

/-- The client that processes the operation made from a server row newer than its own
shows what the server shows. -/
theorem snapshot_transfers (e : Engine V) (now : ℚ) (rec : Record V)
    (hold : ∀ r, e.localStore.get rec.key true = some r →
      (VectorClock.ofDict r.vectorClock).compare (VectorClock.ofDict rec.vectorClock).clocks =
        .before) :
    let s := (e.pullLoop noFaults [(Server.snapshotOp now rec).toDict]).engine.localStore
    (s.get rec.key = none ↔ rec.deleted = true) ∧
      ∀ r, s.get rec.key = some r → r.data = rec.data ∧ r.vectorClock = rec.vectorClock ∧
        r.lastModified = rec.lastModified ∧ r.lastModifiedBy = rec.lastModifiedBy := by
  intro s
  have hs : s = e.conflictResolver.process e.localStore (Server.snapshotOp now rec) :=
    (e.pullLoop_noFaults [Server.snapshotOp now rec]).localStore
  have hrow : s.get rec.key true =
      e.conflictResolver.settle (e.localStore.get rec.key true) (Server.snapshotOp now rec) := by
    rw [hs]
    exact e.conflictResolver.get_process_self _ _
  have hlive := e.conflictResolver.live_settle_snapshotOp now fun r hr =>
    VectorClock.compare_before.1 (hold r hr)
  rw [← hrow, ← LocalStore.get_false] at hlive
  refine ⟨?_, fun r hr => ?_⟩
  · rw [← Option.map_eq_none_iff (f := Record.content), hlive]
    cases rec.deleted <;> simp
  · rw [hr] at hlive
    split_ifs at hlive
    · cases hlive
    · simpa only [Record.content, Option.map_some, Option.some.injEq, Prod.mk.injEq] using hlive

/-- The client holds the record as node `b` had it at first, the server as `b` has updated it. -/
theorem snapshot_transfers_example :
    let first := ConflictResolver.sampleUpdate "b" 5
    let second := { ConflictResolver.sampleUpdate "b" 7 with
      payload := (∅ : Dict String ℕ).insert "b" 2, vectorClock := (∅ : Dict String ℤ).insert "b" 2 }
    let e := ((Engine.create "edge").pullLoop noFaults [first.toDict]).engine
    let row := LocalStore.written (some (LocalStore.written none first)) second
    let s := (e.pullLoop noFaults [(Server.snapshotOp 9 row).toDict]).engine.localStore
    (e.localStore.get row.key).map Record.data = some ((∅ : Dict String ℕ).insert "b" 1) ∧
      (s.get row.key).map Record.data = some ((∅ : Dict String ℕ).insert "b" 2) ∧
      (s.get row.key = none ↔ row.deleted = true) ∧
      ∀ r, s.get row.key = some r → r.data = row.data ∧ r.vectorClock = row.vectorClock ∧
        r.lastModified = row.lastModified ∧ r.lastModifiedBy = row.lastModifiedBy := by
  intro first second e row s
  refine ⟨by decide +kernel, by decide +kernel, snapshot_transfers e 9 row fun r hr => ?_⟩
  have hrow : e.localStore.get row.key true = some (LocalStore.written none first) := by decide +kernel
  obtain rfl := Option.some.inj (hrow.symm.trans hr)
  decide +kernel

end Engine
end Dhava
