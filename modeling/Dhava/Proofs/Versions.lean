import Dhava.Proofs.AllOrNothing
import Dhava.Proofs.PullDelta
import Dhava.Proofs.Request
import Dhava.Spec.Restart
import Dhava.Spec.ServerProcess
import Mathlib

/-! The version column. Over the whole history of a database a row is overwritten only by one
that counts more versions, so on one replica the version tells the states of a row apart, and
so do the ids of the operations the server makes up for its rows. -/

namespace Dhava

open Foundations

variable {V : Type}

namespace LocalStore

theorem versions_congr {s s' : LocalStore V} {key : Key} (h : s'.get key true = s.get key true) :
    s'.versions key = s.versions key := by
  unfold versions
  rw [h]

/-- A later store: each row is still there, or has been overwritten at a higher version. -/
instance : Preorder (LocalStore V) where
  le s s' := ∀ key, s'.get key true = s.get key true ∨ s.versions key < s'.versions key
  le_refl _ _ := Or.inl rfl
  le_trans s s' s'' h h' key := by
    rcases h key with hsame | hlt
    · rcases h' key with hsame' | hlt'
      · exact Or.inl (hsame'.trans hsame)
      · exact Or.inr (versions_congr hsame ▸ hlt')
    · rcases h' key with hsame' | hlt'
      · exact Or.inr ((versions_congr hsame').symm ▸ hlt)
      · exact Or.inr (hlt.trans hlt')

theorem le_applyOperation (s : LocalStore V) (op : Operation V) : s ≤ (s.applyOperation op).1 := by
  intro key
  by_cases hkey : key = op.key
  · subst hkey
    obtain ⟨-, key, hlt⟩ := Pi.lt_def.1 (s.versions_lt_applyOperation op)
    by_cases hkey : key = op.key
    · exact Or.inr (hkey ▸ hlt)
    · have hsame := s.get_applyOperation op key
      rw [if_neg hkey] at hsame
      exact absurd (versions_congr hsame).le hlt.not_ge
  · have hsame := s.get_applyOperation op key
    rw [if_neg hkey] at hsame
    exact Or.inl hsame

/-- A later store still has the row, the same unless its version is higher. -/
theorem get_of_le {s s' : LocalStore V} (h : s ≤ s') {key : Key} {r : Record V}
    (hr : s.get key true = some r) : ∃ r', s'.get key true = some r' ∧ r.version ≤ r'.version ∧
      (r'.version = r.version → r' = r) := by
  rcases h key with hsame | hlt
  · exact ⟨r, hsame.trans hr, le_rfl, fun _ => rfl⟩
  · unfold versions at hlt
    rw [hr] at hlt
    cases hr' : s'.get key true with
    | none =>
      rw [hr'] at hlt
      exact absurd hlt not_lt_bot
    | some r' =>
      rw [hr'] at hlt
      have hlt : r.version < r'.version := WithBot.coe_lt_coe.1 hlt
      exact ⟨r', rfl, hlt.le, fun he => absurd he hlt.ne'⟩

end LocalStore

theorem ConflictResolver.le_process (self : ConflictResolver) (s : LocalStore V)
    (op : Operation V) : s ≤ self.process s op := by
  unfold process
  split_ifs
  · exact s.le_applyOperation op
  · exact le_rfl

namespace Lifetime

theorem localStore_le_step (l : Lifetime V) (ev : LifetimeEvent V) :
    l.engine.localStore ≤ (l.step ev).engine.localStore := by
  cases ev with
  | call c ends =>
    have hleft := l.engine.callUnder_left c ends
    by_cases hrecord : Engine.CommitsRecord ends
    · exact (l.engine.localStore.le_applyOperation _).trans_eq (hleft.record hrecord).symm
    · exact (hleft.neither hrecord).1.ge
  | sync sessionId link now faults x =>
    have hpulled := l.engine.pulled_invariant sessionId link now faults x
      (P := fun s _ => l.engine.localStore ≤ s) (fun _ _ _ h => h)
      (fun s _ op h => h.trans (l.engine.conflictResolver.le_process s op)) le_rfl
    exact hpulled.trans_eq (l.engine.syncNow_synced sessionId link now faults x).localStore.symm
  | restart => exact le_rfl

/-- Whatever the processes on a database do, a row is never lost, its version never goes down,
and at one version it is one row. -/
theorem version_identifies_row (l : Lifetime V) (evs : List (LifetimeEvent V)) {key : Key}
    {r : Record V} (hr : l.engine.localStore.get key true = some r) :
    ∃ r', (replay step l evs).engine.localStore.get key true = some r' ∧
      r.version ≤ r'.version ∧ (r'.version = r.version → r' = r) :=
  LocalStore.get_of_le
    (le_replay (fun l : Lifetime V => l.engine.localStore) localStore_le_step l evs) hr

/-- The record is written, the node restarts, and writes it again. -/
theorem version_identifies_row_example :
    let write (opId : String) (now : ℚ) : LifetimeEvent ℕ :=
      .call { opType := .update, collection := "reports", recordId := "r1", opId, now,
              enqueuedAt := now } fun _ => .committed
    let l := (Lifetime.create "node-01").step (write "1" 1)
    ∃ r r', l.engine.localStore.get ("reports", "r1") true = some r ∧
      (replay step l [.restart, write "2" 2]).engine.localStore.get ("reports", "r1") true = some r' ∧
      r.version ≤ r'.version ∧ (r'.version = r.version → r' = r) := by
  intro write l
  have hstored : (l.engine.localStore.get ("reports", "r1") true).isSome = true := by
    decide +kernel
  obtain ⟨r, hr⟩ := Option.isSome_iff_exists.1 hstored
  obtain ⟨r', hr', hversion⟩ := version_identifies_row l [.restart, write "2" 2] hr
  exact ⟨r, r', hr, hr', hversion⟩

end Lifetime

namespace Server

theorem localStore_le_step (srv : Server V) (ev : ServerEvent V) :
    srv.localStore ≤ (srv.step ev).localStore := by
  have hloop : ∀ faults dicts, srv.localStore ≤ (srv.pushLoop faults dicts).server.localStore := by
    intro faults dicts
    rw [(srv.pushLoop_frame faults dicts).2.2]
    exact le_replay id srv.conflictResolver.le_process srv.localStore _
  rcases ev with ((c | ⟨faults, now, req⟩) | -)
  · exact le_rfl
  · change srv.localStore ≤ (srv.handleSyncRequest faults now req).1.localStore
    rcases srv.handleSyncRequest_ends faults now req with
      ⟨error, hresult, -⟩ | ⟨dicts, -, -, ⟨exc, error, -, hresult⟩ | ⟨-, hresult⟩⟩
    · rw [hresult]
    · rw [hresult]
      exact hloop faults dicts
    · rw [hresult]
      exact hloop faults dicts
  · exact le_rfl

/-- A delta operation is made up from a stored row. -/
theorem stored_of_delta {srv : Server V} {now : ℚ} {peerVc : VectorClock} {peer : String}
    {op : Operation V} (h : op ∈ srv.getOperationsForPeer now peerVc peer) :
    ∃ r, srv.localStore.get op.key true = some r ∧ op = snapshotOp now r := by
  rw [getOperationsForPeer_eq] at h
  obtain ⟨r, hr, rfl⟩ := List.mem_map.1 h
  have hrow := ((srv.mem_deltaRows peerVc peer r).1 hr).2.2
  have hmem := ((LocalStore.mem_rowsOf _ _ _).1 (List.mem_of_mem_take hrow)).1
  exact ⟨r, (LocalStore.mem_rows_iff _ r).1 hmem, rfl⟩

theorem version_of_snapshotOp_opId {now now' : ℚ} {r r' : Record V} (hkey : r.key = r'.key)
    (h : (snapshotOp now r).opId = (snapshotOp now' r').opId) : r.version = r'.version := by
  obtain ⟨hcoll, hid⟩ := Prod.mk.inj hkey
  unfold snapshotOp at h
  simp only at h
  rw [hcoll, hid] at h
  have hversion := (String.append_right_inj _).1 h
  exact Int.repr_injective hversion

/-- Two operations with one id that the server ever sends for a record, in whatever requests of
whatever peers and processes, are the same but for the time they were made up. -/
theorem delta_ids_identify (srv : Server V) (evs : List (ServerEvent V)) {now now' : ℚ}
    {peerVc peerVc' : VectorClock} {peer peer' : String} {op op' : Operation V}
    (hop : op ∈ srv.getOperationsForPeer now peerVc peer)
    (hop' : op' ∈ (replay step srv evs).getOperationsForPeer now' peerVc' peer')
    (hkey : op.key = op'.key) (hid : op.opId = op'.opId) :
    op' = { op with enqueuedAt := now' } := by
  obtain ⟨r, hr, hrow⟩ := stored_of_delta hop
  obtain ⟨r', hr', hrow'⟩ := stored_of_delta hop'
  have hle := le_replay (fun srv : Server V => srv.localStore) localStore_le_step srv evs
  obtain ⟨r'', hr'', -, hsame⟩ := LocalStore.get_of_le hle hr
  rw [← hkey] at hr'
  obtain rfl := Option.some.inj (hr''.symm.trans hr')
  rw [hrow, hrow'] at hkey hid
  rw [hrow, hrow', hsame (version_of_snapshotOp_opId hkey hid).symm]
  rfl

/-- A server that has taken in one record of node `a`. -/
def oneReport : Server ℕ :=
  ((Server.create "hq").pushOne none
    { opId := "u", nodeId := "a", opType := .create, collection := "reports", recordId := "r1"
      payload := ∅, timestamp := 0, vectorClock := (∅ : Dict String ℤ).insert "a" 1
      lamportTimestamp := 1, enqueuedAt := 0 }).1

/-- The record goes to `b`, and from another process to `c`. -/
theorem delta_ids_identify_example :
    ∃ op ∈ oneReport.getOperationsForPeer 2 (VectorClock.ofDict ∅) "b",
      ∃ op' ∈ (replay step oneReport [.restart]).getOperationsForPeer 9 (VectorClock.ofDict ∅) "c",
        op' = { op with enqueuedAt := 9 } := by
  have hsent : 0 < (oneReport.getOperationsForPeer 2 (VectorClock.ofDict ∅) "b").length := by
    decide +kernel
  have hsent' : 0 < ((replay step oneReport [.restart]).getOperationsForPeer 9
      (VectorClock.ofDict ∅) "c").length := by decide +kernel
  have hop := List.get_mem _ ⟨0, hsent⟩
  have hop' := List.get_mem _ ⟨0, hsent'⟩
  exact ⟨_, hop, _, hop', delta_ids_identify oneReport [.restart] hop hop'
    (by decide +kernel +revert) (by decide +kernel +revert)⟩

end Server
end Dhava
