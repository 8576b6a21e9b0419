import Dhava.Proofs.Acknowledge
import Dhava.Proofs.AllOrNothing
import Dhava.Spec.Restart

/-! The attempts an outbox row counts. Over all the processes that have opened the database it
is the number of sessions that sent the row and marked it failed, one a process at most. -/

namespace Dhava

open Foundations

variable {V : Type}

namespace OutboxQueue

theorem map_opId_setWhere (q : OutboxQueue V) (ids : List String) (f : Operation V → Operation V)
    (hf : ∀ op, (f op).opId = op.opId) :
    (q.setWhere ids f hf).rows.map Operation.opId = q.rows.map Operation.opId :=
  Keyed.map_key_update q.table _ f hf

theorem map_opId_resetInFlight (q : OutboxQueue V) :
    q.resetInFlight.rows.map Operation.opId = q.rows.map Operation.opId :=
  Keyed.map_key_update q.table _ (fun op => { op with syncState := .pending }) fun _ => rfl

end OutboxQueue

namespace Lifetime

/-- A session with the operation in its batch that ends on an exit that marks it failed. -/
def failsOn (l : Lifetime V) (opId : String) : LifetimeEvent V → Bool
  | .sync _ (some bandwidthBps) _ _ x =>
    x.marksFailed && opId ∈ (l.engine.pendingBatch bandwidthBps).map Operation.opId
  | _ => false

def isRestart : LifetimeEvent V → Bool
  | .restart => true
  | _ => false

/-- The sessions of a run that had the operation in their batch and marked it failed. -/
def failures (l : Lifetime V) (evs : List (LifetimeEvent V)) (opId : String) : ℕ :=
  (outputs step (fun l ev => l.failsOn opId ev) l evs).count true

theorem failures_concat (l : Lifetime V) (evs : List (LifetimeEvent V)) (ev : LifetimeEvent V)
    (opId : String) : l.failures (evs ++ [ev]) opId =
      l.failures evs opId + if (replay step l evs).failsOn opId ev then 1 else 0 := by
  unfold failures
  rw [outputs_concat, List.count_append, List.count_singleton]
  simp

/-- What the rows count, against a count of the failures and of the restarts. -/
structure Tallied (l : Lifetime V) (count : String → ℕ) (restarts : ℕ) : Prop where
  attempts : ∀ r ∈ l.engine.outbox.rows, r.syncAttempts = count r.opId
  fresh : ∀ opId, opId ∉ l.engine.outbox.rows.map Operation.opId → count opId = 0
  bound : ∀ r ∈ l.engine.outbox.rows, count r.opId ≤ restarts + 1
  pending : ∀ r ∈ l.engine.outbox.rows, r.syncState = .pending → count r.opId ≤ restarts

theorem tallied_create (nodeId : String) (config : EngineConfig) :
    (create nodeId config : Lifetime V).Tallied (fun _ => 0) 0 := by
  constructor
  · intro r hr
    cases hr
  · intro opId hfree
    rfl
  · intro r hr
    cases hr
  · intro r hr
    cases hr

variable {l l' : Lifetime V} {count : String → ℕ} {restarts : ℕ}

theorem Tallied.of_rows (h : l.Tallied count restarts)
    (hrows : l'.engine.outbox.rows = l.engine.outbox.rows) : l'.Tallied count restarts := by
  constructor
  · exact hrows ▸ h.attempts
  · exact hrows ▸ h.fresh
  · exact hrows ▸ h.bound
  · exact hrows ▸ h.pending

/-- A new row has not been sent. -/
theorem Tallied.call (h : l.Tallied count restarts) (c : LocalCall V) (ends : WriteStep → TxEnd) :
    (l.call c ends).Tallied count restarts := by
  have hleft := l.engine.callUnder_left c ends
  by_cases hrecord : Engine.CommitsRecord ends
  · by_cases hentry : l.engine.CommitsEntry c ends
    · have hrows : (l.call c ends).engine.outbox.rows =
          l.engine.outbox.rows ++ [l.engine.stamped c] := hleft.entry hrecord hentry
      have hzero : count c.opId = 0 := by
        refine h.fresh c.opId fun hmem => ?_
        obtain ⟨r, hr, hid⟩ := List.mem_map.1 hmem
        exact hentry.2.2 r hr hid
      constructor
      · rw [hrows, List.forall_mem_append, List.forall_mem_singleton]
        refine ⟨h.attempts, ?_⟩
        rw [Engine.stamped_opId, hzero]
        rfl
      · intro opId hfree
        rw [hrows, List.map_append, List.mem_append, not_or] at hfree
        exact h.fresh opId hfree.1
      · rw [hrows, List.forall_mem_append, List.forall_mem_singleton]
        refine ⟨h.bound, ?_⟩
        rw [Engine.stamped_opId, hzero]
        exact Nat.zero_le _
      · rw [hrows, List.forall_mem_append, List.forall_mem_singleton]
        refine ⟨h.pending, fun _ => ?_⟩
        rw [Engine.stamped_opId, hzero]
        exact Nat.zero_le _
    · exact h.of_rows (congrArg OutboxQueue.rows (hleft.noEntry hrecord hentry))
  · exact h.of_rows (congrArg OutboxQueue.rows (hleft.neither hrecord).2)

/-- A session that fails counts once more on each row of its batch, all of them pending. -/
theorem Tallied.markFailed (h : l.Tallied count restarts) (bandwidthBps : ℤ) (error : String)
    (hrows : l'.engine.outbox.rows = (l.engine.outbox.markFailed
      ((l.engine.pendingBatch bandwidthBps).map Operation.opId) error).rows) :
    l'.Tallied (fun opId => count opId +
      if opId ∈ (l.engine.pendingBatch bandwidthBps).map Operation.opId then 1 else 0) restarts := by
  have hcases : ∀ r ∈ l'.engine.outbox.rows, ∃ r₀ ∈ l.engine.outbox.rows, r =
      if r₀.opId ∈ (l.engine.pendingBatch bandwidthBps).map Operation.opId then
        { r₀ with syncState := .failed, syncAttempts := r₀.syncAttempts + 1, lastError := some error }
      else r₀ := by
    intro r hr
    rw [hrows] at hr
    exact OutboxQueue.mem_markFailed.1 hr
  constructor
  · intro r hr
    obtain ⟨r₀, hr₀, rfl⟩ := hcases r hr
    have hattempts := h.attempts r₀ hr₀
    by_cases hsent : r₀.opId ∈ (l.engine.pendingBatch bandwidthBps).map Operation.opId
    · simp only [if_pos hsent]
      rw [hattempts]
      push_cast
      rfl
    · simp only [if_neg hsent]
      exact hattempts
  · intro opId hfree
    have hids : l'.engine.outbox.rows.map Operation.opId =
        l.engine.outbox.rows.map Operation.opId := by
      rw [hrows]
      exact OutboxQueue.map_opId_setWhere l.engine.outbox _ _ _
    rw [hids] at hfree
    have hnot : opId ∉ (l.engine.pendingBatch bandwidthBps).map Operation.opId := fun hmem =>
      hfree (List.map_subset _ (fun b hb => (OutboxQueue.mem_getPending hb).1) hmem)
    simp only [if_neg hnot, h.fresh opId hfree]
  · intro r hr
    obtain ⟨r₀, hr₀, rfl⟩ := hcases r hr
    by_cases hsent : r₀.opId ∈ (l.engine.pendingBatch bandwidthBps).map Operation.opId
    · simp only [if_pos hsent]
      exact Nat.succ_le_succ (h.pending r₀ hr₀ (Engine.pending_of_sent hr₀ hsent))
    · simp only [if_neg hsent]
      exact h.bound r₀ hr₀
  · intro r hr hpending
    obtain ⟨r₀, hr₀, rfl⟩ := hcases r hr
    by_cases hsent : r₀.opId ∈ (l.engine.pendingBatch bandwidthBps).map Operation.opId
    · simp only [if_pos hsent] at hpending
      cases hpending
    · simp only [if_neg hsent] at hpending ⊢
      exact h.pending r₀ hr₀ hpending

theorem Tallied.markSynced (h : l.Tallied count restarts) (ids : List String) (now : ℚ)
    (hrows : l'.engine.outbox.rows = (l.engine.outbox.markSynced ids now).rows) :
    l'.Tallied count restarts := by
  have hcases : ∀ r ∈ l'.engine.outbox.rows, ∃ r₀ ∈ l.engine.outbox.rows, r.opId = r₀.opId ∧
      r.syncAttempts = r₀.syncAttempts ∧ (r.syncState = .pending → r₀.syncState = .pending) := by
    intro r hr
    rw [hrows] at hr
    obtain ⟨r₀, hr₀, rfl⟩ := OutboxQueue.mem_markSynced.1 hr
    refine ⟨r₀, hr₀, ?_⟩
    split_ifs
    · exact ⟨rfl, rfl, fun hpending => by cases hpending⟩
    · exact ⟨rfl, rfl, fun hpending => hpending⟩
  constructor
  · intro r hr
    obtain ⟨r₀, hr₀, hid, hattempts, -⟩ := hcases r hr
    rw [hid, hattempts]
    exact h.attempts r₀ hr₀
  · intro opId hfree
    have hids : l'.engine.outbox.rows.map Operation.opId =
        l.engine.outbox.rows.map Operation.opId := by
      rw [hrows]
      exact OutboxQueue.map_opId_setWhere l.engine.outbox _ _ _
    exact h.fresh opId (hids ▸ hfree)
  · intro r hr
    obtain ⟨r₀, hr₀, hid, -, -⟩ := hcases r hr
    rw [hid]
    exact h.bound r₀ hr₀
  · intro r hr hpending
    obtain ⟨r₀, hr₀, hid, -, hstate⟩ := hcases r hr
    rw [hid]
    exact h.pending r₀ hr₀ (hstate hpending)

/-- A new process makes the failed rows pending again. -/
theorem Tallied.restart (h : l.Tallied count restarts) : l.restart.Tallied count (restarts + 1) := by
  have hrows : l.restart.engine.outbox.rows = l.engine.outbox.resetInFlight.rows := rfl
  have hcases : ∀ r ∈ l.restart.engine.outbox.rows, ∃ r₀ ∈ l.engine.outbox.rows,
      r.opId = r₀.opId ∧ r.syncAttempts = r₀.syncAttempts := by
    intro r hr
    obtain ⟨r₀, hr₀, rfl⟩ := OutboxQueue.mem_resetInFlight.1 hr
    refine ⟨r₀, hr₀, ?_⟩
    split_ifs <;> exact ⟨rfl, rfl⟩
  constructor
  · intro r hr
    obtain ⟨r₀, hr₀, hid, hattempts⟩ := hcases r hr
    rw [hid, hattempts]
    exact h.attempts r₀ hr₀
  · intro opId hfree
    have hids : l.restart.engine.outbox.rows.map Operation.opId =
        l.engine.outbox.rows.map Operation.opId := by
      rw [hrows]
      exact l.engine.outbox.map_opId_resetInFlight
    exact h.fresh opId (hids ▸ hfree)
  · intro r hr
    obtain ⟨r₀, hr₀, hid, -⟩ := hcases r hr
    rw [hid]
    exact (h.bound r₀ hr₀).trans (Nat.le_succ _)
  · intro r hr _
    obtain ⟨r₀, hr₀, hid, -⟩ := hcases r hr
    rw [hid]
    exact h.bound r₀ hr₀

/-- One step, with the failure it may be for each operation. -/
theorem Tallied.step (h : l.Tallied count restarts) (ev : LifetimeEvent V) :
    (l.step ev).Tallied (fun opId => count opId + if l.failsOn opId ev then 1 else 0)
      (restarts + if isRestart ev then 1 else 0) := by
  cases ev with
  | call c ends => exact h.call c ends
  | restart => exact h.restart
  | sync sessionId link now faults x =>
    have hidle : x.marksFailed = false ∨ link = none →
        (fun opId => count opId +
          if l.failsOn opId (.sync sessionId link now faults x) then 1 else 0) = count := by
      rintro (hx | rfl)
      · funext opId
        cases link with
        | none => rfl
        | some bandwidthBps => simp [failsOn, hx]
      · rfl
    rcases l.engine.rows_syncNow sessionId link now faults x with
      ⟨bandwidthBps, error, rfl, hx, hrows⟩ | ⟨bandwidthBps, resp, -, hresp, hrows⟩ | ⟨hno, hrows⟩
    · have hcount : (fun opId => count opId +
          if l.failsOn opId (.sync sessionId (some bandwidthBps) now faults x) then 1 else 0) =
          fun opId => count opId +
            if opId ∈ (l.engine.pendingBatch bandwidthBps).map Operation.opId then 1 else 0 := by
        funext opId
        simp only [failsOn, hx, Bool.true_and, decide_eq_true_eq]
      rw [hcount]
      exact h.markFailed bandwidthBps error hrows
    · have hx : x.marksFailed = false := by
        by_contra hmarks
        rw [Exchange.accepted_of_marksFailed (Bool.not_eq_false _ ▸ hmarks)] at hresp
        cases hresp
      rw [hidle (Or.inl hx)]
      exact h.markSynced resp.ackedOpIds now hrows
    · rw [hidle (hno.elim Or.inr fun hx => Or.inl hx.1)]
      exact h.of_rows hrows

/-- Over all the processes on a database, every row counts exactly the sessions that had it in
their batch and marked it failed, at most one for each process. A session that ends in the `except`
clause marks nothing. -/
theorem attempts_count_failures (nodeId : String) (config : EngineConfig)
    (evs : List (LifetimeEvent V)) :
    let l := create nodeId config
    ∀ r ∈ (replay step l evs).engine.outbox.rows,
      r.syncAttempts = l.failures evs r.opId ∧
        l.failures evs r.opId ≤ evs.countP isRestart + 1 ∧
        (r.syncState = .pending → l.failures evs r.opId ≤ evs.countP isRestart) := by
  intro l
  have h : (replay step l evs).Tallied (l.failures evs) (evs.countP isRestart) := by
    induction evs using List.reverseRecOn with
    | nil => exact tallied_create nodeId config
    | append_singleton evs ev ih =>
      have hstep := ih.step ev
      have hcount : l.failures (evs ++ [ev]) = fun opId => l.failures evs opId +
          if (replay step l evs).failsOn opId ev then 1 else 0 :=
        funext (l.failures_concat evs ev)
      rw [replay_concat, hcount, List.countP_append, List.countP_singleton]
      exact hstep
  exact fun r hr => ⟨h.attempts r hr, h.bound r hr, h.pending r hr⟩

end Lifetime
end Dhava
