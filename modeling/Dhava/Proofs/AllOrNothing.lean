import Dhava.Proofs.Session
import Dhava.Spec.LocalWrite

/-! A local write and its outbox entry. The two tables go through two transactions, one
after the other: whatever comes between them leaves a record that is never replicated. -/

namespace Dhava

open Foundations

variable {V : Type}

namespace Engine

/-- The record write of a call is stored and its operation is in the outbox, or both
tables are as they were. -/
def AllOrNothing (e : Engine V) (c : LocalCall V) (e' : Engine V) : Prop :=
  (e'.localStore = (e.localStore.applyOperation (e.stamped c)).1 ∧
      e'.outbox.rows = e.outbox.rows ++ [e.stamped c]) ∨
    (e'.localStore = e.localStore ∧ e'.outbox = e.outbox)

/-- The call gets as far as committing the record. -/
def CommitsRecord (ends : WriteStep → TxEnd) : Prop :=
  ends .readClock = .committed ∧ (ends .apply).commits = true

/-- The call goes on to the outbox, and that transaction commits too. -/
def CommitsEntry (e : Engine V) (c : LocalCall V) (ends : WriteStep → TxEnd) : Prop :=
  ends .apply = .committed ∧ (ends .enqueue).commits = true ∧ ∀ r ∈ e.outbox.rows, r.opId ≠ c.opId

instance (ends : WriteStep → TxEnd) : Decidable (CommitsRecord ends) :=
  inferInstanceAs (Decidable (_ ∧ _))

/-- What a call leaves in the two tables, by the transactions that commit. -/
structure Left (e : Engine V) (c : LocalCall V) (ends : WriteStep → TxEnd) (e' : Engine V) : Prop where
  neither : ¬ CommitsRecord ends → e'.localStore = e.localStore ∧ e'.outbox = e.outbox
  record : CommitsRecord ends → e'.localStore = (e.localStore.applyOperation (e.stamped c)).1
  entry : CommitsRecord ends → CommitsEntry e c ends → e'.outbox.rows = e.outbox.rows ++ [e.stamped c]
  noEntry : CommitsRecord ends → ¬ CommitsEntry e c ends → e'.outbox = e.outbox

theorem auditUnder_frame (e : Engine V) (op : Operation V) (record : Record V) (audit : TxEnd) :
    (e.auditUnder op record audit).1.localStore = e.localStore ∧
      (e.auditUnder op record audit).1.outbox = e.outbox := by
  unfold auditUnder
  split_ifs
  · cases audit with
    | committed => exact ⟨auditLocalWrite_localStore e op, auditLocalWrite_outbox e op⟩
    | raised exc => exact ⟨rfl, rfl⟩
    | stopped b =>
      cases b with
      | false => exact ⟨rfl, rfl⟩
      | true => exact ⟨auditLocalWrite_localStore e op, auditLocalWrite_outbox e op⟩
  · exact ⟨rfl, rfl⟩

/-- From `enqueue` on the records stay, and the entry is there exactly if its transaction
commits and the id is free. -/
theorem enqueueUnder_left (e : Engine V) (op : Operation V) (record : Record V)
    (enqueue audit : TxEnd) :
    (e.enqueueUnder op record enqueue audit).1.localStore = e.localStore ∧
      ((enqueue.commits = true ∧ ∀ r ∈ e.outbox.rows, r.opId ≠ op.opId) →
        (e.enqueueUnder op record enqueue audit).1.outbox.rows = e.outbox.rows ++ [op]) ∧
      (¬ (enqueue.commits = true ∧ ∀ r ∈ e.outbox.rows, r.opId ≠ op.opId) →
        (e.enqueueUnder op record enqueue audit).1.outbox = e.outbox) := by
  unfold enqueueUnder
  rcases e.outbox.enqueue_cases op with ⟨q, hq, hrows, hfree⟩ | ⟨⟨exc, hexc⟩, r, hr, hid⟩
  · rw [hq]
    cases enqueue with
    | raised exc => exact ⟨rfl, fun h => by simp [TxEnd.commits] at h, fun _ => rfl⟩
    | stopped b =>
      cases b with
      | false => exact ⟨rfl, fun h => by simp [TxEnd.commits] at h, fun _ => rfl⟩
      | true => exact ⟨rfl, fun _ => hrows, fun h => absurd ⟨rfl, hfree⟩ h⟩
    | committed =>
      obtain ⟨hstore, hout⟩ := auditUnder_frame { e with outbox := q } op record audit
      exact ⟨hstore, fun _ => (congrArg OutboxQueue.rows hout).trans hrows,
        fun h => absurd ⟨rfl, hfree⟩ h⟩
  · have htaken : ¬ (enqueue.commits = true ∧ ∀ r ∈ e.outbox.rows, r.opId ≠ op.opId) :=
      fun h => h.2 r hr hid
    rw [hexc]
    cases enqueue with
    | raised exc => exact ⟨rfl, fun h => absurd h htaken, fun _ => rfl⟩
    | stopped b => cases b <;> exact ⟨rfl, fun h => absurd h htaken, fun _ => rfl⟩
    | committed => exact ⟨rfl, fun h => absurd h htaken, fun _ => rfl⟩

/-- One case for each of the places where the call can end. -/
theorem callUnder_left (e : Engine V) (c : LocalCall V) (ends : WriteStep → TxEnd) :
    Left e c ends (e.callUnder c ends).1 := by
  have hnothing : ∀ e' : Engine V, ¬ CommitsRecord ends →
      e'.localStore = e.localStore → e'.outbox = e.outbox → Left e c ends e' :=
    fun e' hnot hstore hout =>
      ⟨fun _ => ⟨hstore, hout⟩, fun h => absurd h hnot, fun h => absurd h hnot, fun h => absurd h hnot⟩
  unfold callUnder
  cases hread : ends .readClock with
  | raised exc => exact hnothing _ (fun h => by simp [CommitsRecord, hread] at h) rfl rfl
  | stopped b => exact hnothing _ (fun h => by simp [CommitsRecord, hread] at h) rfl rfl
  | committed =>
    simp only
    cases happly : ends .apply with
    | raised exc =>
      exact hnothing _ (fun h => by simp [CommitsRecord, happly, TxEnd.commits] at h) rfl rfl
    | stopped b =>
      cases b with
      | false => exact hnothing _ (fun h => by simp [CommitsRecord, happly, TxEnd.commits] at h) rfl rfl
      | true =>
        have hend : CommitsRecord ends := ⟨hread, by simp [happly, TxEnd.commits]⟩
        have hnot : ¬ CommitsEntry e c ends := fun h => by simp [CommitsEntry, happly] at h
        exact ⟨fun h => absurd hend h, fun _ => rfl, fun _ h => absurd h hnot, fun _ _ => rfl⟩
    | committed =>
      have hend : CommitsRecord ends := ⟨hread, by simp [happly, TxEnd.commits]⟩
      obtain ⟨hstore, hentry, hnoEntry⟩ := enqueueUnder_left ((e.stamp c).1.applyLocal (e.stamp c).2).1
        (e.stamp c).2 ((e.stamp c).1.applyLocal (e.stamp c).2).2 (ends .enqueue) (ends .audit)
      refine ⟨fun h => absurd hend h, fun _ => hstore, fun _ h => hentry h.2, fun _ h => ?_⟩
      exact hnoEntry fun hcommits => h ⟨happly, hcommits⟩

/-- A call is all or nothing exactly when the outbox transaction commits whenever the
record transaction does. -/
theorem call_all_or_nothing_iff (e : Engine V) (c : LocalCall V) (ends : WriteStep → TxEnd) :
    AllOrNothing e c (e.callUnder c ends).1 ↔ (CommitsRecord ends → CommitsEntry e c ends) := by
  have hleft := callUnder_left e c ends
  constructor
  · intro h hend
    by_contra hnot
    rcases h with ⟨-, hrows⟩ | ⟨hstore, -⟩
    · rw [hleft.noEntry hend hnot] at hrows
      simp at hrows
    · rw [hleft.record hend] at hstore
      exact LocalStore.applyOperation_ne _ _ hstore
  · intro h
    by_cases hend : CommitsRecord ends
    · exact Or.inl ⟨hleft.record hend, hleft.entry hend (h hend)⟩
    · exact Or.inr (hleft.neither hend)

/-- A create whose user id the outbox insert cannot bind. The record insert has no such column. -/
def unboundUser : LocalCall ℕ :=
  { opType := .create, collection := "incidents", recordId := "r"
    data := (∅ : Dict String ℕ).insert "casualties" 3, opId := "1", now := 0, enqueuedAt := 0 }

def unboundEnds : WriteStep → TxEnd
  | .enqueue => .raised "surrogates not allowed"
  | _ => .committed

/-- The record is stored and the outbox stays empty. -/
theorem stored_not_enqueued :
    (((Engine.create "a").callUnder unboundUser unboundEnds).1.localStore.get
        ("incidents", "r")).map Record.data = some ((∅ : Dict String ℕ).insert "casualties" 3) ∧
      ((Engine.create "a").callUnder unboundUser unboundEnds).1.outbox.rows = [] ∧
      ¬ AllOrNothing (Engine.create "a") unboundUser
        ((Engine.create "a").callUnder unboundUser unboundEnds).1 := by
  refine ⟨by decide +kernel, by decide +kernel, fun h => ?_⟩
  rcases h with ⟨-, hrows⟩ | ⟨hstore, -⟩
  · exact absurd (congrArg List.length hrows) (by decide +kernel)
  · have hget := congrArg (fun s => (s.get ("incidents", "r")).isSome) hstore
    exact absurd hget (by decide +kernel)

end Engine
end Dhava
