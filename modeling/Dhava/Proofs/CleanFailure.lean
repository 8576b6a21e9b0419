import Dhava.Foundations.Attempt
import Dhava.Proofs.Session
import Dhava.Spec.SyncNow
import Mathlib

/-! `sync_now` when any of its statements raises. The invariants say what may have been written
before the exchange, once a response is accepted, and at either end of the `try` block. -/

set_option mvcgen.warning false

namespace Dhava

open Foundations Std.Do

variable {V : Type}

namespace SyncEnv

/-- The statements before the exchange. -/
def preparation : List SyncStep :=
  [.estimateBandwidth, .calculateBatch, .lock, .getPending, .packOps, .encrypt, .createRequest,
    .serialize]

/-- Nothing raises before the exchange. -/
def Sends (env : SyncEnv V) : Prop := ∀ step ∈ preparation, env.raises step = none

instance (env : SyncEnv V) : Decidable env.Sends :=
  inferInstanceAs (Decidable (∀ step ∈ preparation, env.raises step = none))

/-- The batch of the request that goes out, if one does. -/
def transmitted (env : SyncEnv V) (e : Engine V) : Option ℤ → List (Operation V)
  | some bandwidthBps => if env.Sends then e.pendingBatch bandwidthBps else []
  | none => []

/-- What the link answers to that request, where it decodes and its status is not `error`. -/
def accepted (env : SyncEnv V) (e : Engine V) : Option ℤ → Option (SyncPullResponse V)
  | some bandwidthBps =>
    if env.Sends then (env.exchange (e.beginSync env.sessionId bandwidthBps).2.2).accepted else none
  | none => none

end SyncEnv

namespace SyncRun

/-- What the `except` clause makes of a run. -/
def raisedOut (run : SyncRun V) (exc : String) : SyncRun V :=
  { run with
    session := { run.session with status := "failed", error := some exc }
    engine := { run.engine with lastError := some exc, state := .error } }

/-- Where the run goes on after the `except` clause. -/
def caught : EStateM.Result String (SyncRun V) Unit → SyncRun V
  | .ok _ run => run
  | .error exc run => run.raisedOut exc

/-- What the `finally` clause makes of it. -/
def unlocked (run : SyncRun V) : SyncRun V :=
  { run with engine := { run.engine with outbox := run.engine.outbox.unlock } }

/-- The tables are as they were. -/
structure Untouched (e : Engine V) (run : SyncRun V) : Prop where
  rows : run.engine.outbox.rows = e.outbox.rows
  localStore : run.engine.localStore = e.localStore
  resolver : run.engine.conflictResolver = e.conflictResolver

/-- Before an answer to the request with the batch `batch` is looked at. -/
structure Sent (e : Engine V) (batch : List (Operation V)) (run : SyncRun V) : Prop
    extends Untouched e run where
  pendingOps : run.pendingOps = batch

/-- A response was accepted, and its pulled operations have led to `localStore`. -/
structure Taken (e : Engine V) (now : ℚ) (resp : SyncPullResponse V) (localStore : LocalStore V)
    (run : SyncRun V) : Prop where
  rows : run.engine.outbox.rows = e.outbox.rows ∨
    run.engine.outbox.rows = (e.outbox.markSynced resp.ackedOpIds now).rows
  localStore : run.engine.localStore = localStore
  resolver : run.engine.conflictResolver = e.conflictResolver

/-- At most one `UPDATE` has gone through on the outbox, the one for what came back. -/
structure Contained (e : Engine V) (now : ℚ) (batch : List (Operation V))
    (accepted : Option (SyncPullResponse V)) (run : SyncRun V) : Prop where
  rows : run.engine.outbox.rows = e.outbox.rows ∨
    (accepted = none ∧ ∃ errMsg, run.engine.outbox.rows =
      (e.outbox.markFailed (batch.map Operation.opId) errMsg).rows) ∨
    ∃ resp, accepted = some resp ∧
      run.engine.outbox.rows = (e.outbox.markSynced resp.ackedOpIds now).rows
  localStore : accepted = none → run.engine.localStore = e.localStore

/-- Every operation of the response was decoded and went through `resolve`, and was applied where
the action says so. -/
def Settled (e : Engine V) (resp : SyncPullResponse V) (run : SyncRun V) : Prop :=
  ∃ (dicts : List (OpDict V)) (ops : List (Operation V)),
    Engine.unpackResponse resp = .ok dicts ∧
      dicts.map Operation.fromDict = ops.map Except.ok ∧
      run.engine.localStore = ops.foldl e.conflictResolver.process e.localStore ∧
      run.session.opsPulled = ops.length

structure Ended (e : Engine V) (now : ℚ) (batch : List (Operation V))
    (accepted : Option (SyncPullResponse V)) (run : SyncRun V) : Prop
    extends Contained e now batch accepted run where
  settled : run.session.status = "completed" → ∃ resp, accepted = some resp ∧ run.Settled e resp

variable {e : Engine V} {now : ℚ} {batch : List (Operation V)}
  {accepted : Option (SyncPullResponse V)} {run : SyncRun V}

theorem Untouched.contained (h : Untouched e run) (now : ℚ) (batch : List (Operation V))
    (accepted : Option (SyncPullResponse V)) : Contained e now batch accepted run :=
  ⟨Or.inl h.rows, fun _ => h.localStore⟩

theorem Taken.contained {resp : SyncPullResponse V} {localStore : LocalStore V}
    (h : Taken e now resp localStore run) (batch : List (Operation V)) :
    Contained e now batch (some resp) run :=
  ⟨h.rows.imp_right fun hrows => Or.inr ⟨resp, rfl, hrows⟩, fun hnone => by cases hnone⟩

/-- The columns of `mark_synced` and `mark_failed` are those of the delivery. -/
theorem Contained.kept (h : Contained e now batch accepted run) :
    List.Forall₂ (fun r r' => r'.asCreated = r.asCreated ∧
        (r' ≠ r → r.opId ∈ batch.map Operation.opId ∨
          ∃ resp, accepted = some resp ∧ r.opId ∈ resp.ackedOpIds))
      e.outbox.rows run.engine.outbox.rows := by
  rcases h.rows with hrows | ⟨-, errMsg, hrows⟩ | ⟨resp, hacc, hrows⟩ <;> rw [hrows]
  · exact List.forall₂_same.2 fun r _ => ⟨rfl, fun hne => absurd rfl hne⟩
  · exact OutboxQueue.forall₂_setWhere (fun r => ⟨rfl, fun hne => absurd rfl hne⟩)
      fun r hmem => ⟨rfl, fun _ => Or.inl hmem⟩
  · exact OutboxQueue.forall₂_setWhere (fun r => ⟨rfl, fun hne => absurd rfl hne⟩)
      fun r hmem => ⟨rfl, fun _ => Or.inr ⟨resp, hacc, hmem⟩⟩

theorem Contained.unsynced (h : Contained e now batch accepted run) (hnone : accepted = none) :
    List.Forall₂ (fun r r' => r'.syncState = .synced → r.syncState = .synced)
      e.outbox.rows run.engine.outbox.rows := by
  rcases h.rows with hrows | ⟨-, errMsg, hrows⟩ | ⟨resp, hacc, -⟩
  · rw [hrows]
    exact List.forall₂_same.2 fun r _ => id
  · rw [hrows]
    exact OutboxQueue.forall₂_setWhere (fun r => id) fun r _ hsynced => by cases hsynced
  · rw [hnone] at hacc
    cases hacc

theorem Contained.ended (h : Contained e now batch accepted run)
    (hfailed : run.session.status = "failed") : Ended e now batch accepted run := by
  refine ⟨h, fun hcompleted => ?_⟩
  rw [hfailed] at hcompleted
  exact absurd hcompleted (by decide)

end SyncRun

namespace SyncEnv

open SyncM SyncRun

variable (env : SyncEnv V) (e : Engine V)

theorem attempt_spec (step : SyncStep) (P : SyncRun V → Prop) :
    ⦃fun run => ⌜P run⌝⦄ env.attempt step
    ⦃post⟨fun _ run => ⌜P run ∧ env.raises step = none⌝, fun _ run => ⌜P run⌝⟩⦄ := by
  mvcgen [attempt]

theorem attempt_keeps (step : SyncStep) (P : SyncRun V → Prop) :
    ⦃fun run => ⌜P run⌝⦄ env.attempt step ⦃post⟨fun _ run => ⌜P run⌝, fun _ run => ⌜P run⌝⟩⦄ := by
  mvcgen [attempt]

theorem failBatch_spec (batch : List (Operation V)) (errMsg : String) :
    ⦃fun run => ⌜Sent e batch run⌝⦄ env.failBatch errMsg
    ⦃post⟨fun _ run => ⌜Ended e env.now batch none run⌝,
      fun _ run => ⌜Contained e env.now batch none run⌝⟩⦄ := by
  have hattempt := fun step => env.attempt_keeps step (Sent e batch)
  mvcgen [failBatch, onEngine, onSession, hattempt]
  · rename_i run hrun _ _ _ _ run' h _ _ _
    refine Contained.ended ⟨Or.inr (Or.inl ⟨rfl, errMsg, ?_⟩), fun _ => h.localStore⟩ rfl
    change (run'.engine.outbox.markFailed (run.pendingOps.map Operation.opId) errMsg).rows =
      (e.outbox.markFailed (batch.map Operation.opId) errMsg).rows
    rw [hrun.pendingOps]
    exact OutboxQueue.rows_setWhere_congr h.rows _ _ _
  · exact fun h => h.contained env.now batch none
  · rename_i run h _ _ _ _ _
    exact Contained.ended ⟨Or.inl h.rows, fun _ => h.localStore⟩ rfl

theorem markAcked_spec (batch : List (Operation V)) (resp : SyncPullResponse V) :
    ⦃fun run => ⌜Untouched e run⌝⦄ env.markAcked resp
    ⦃post⟨fun _ run => ⌜Taken e env.now resp e.localStore run⌝,
      fun _ run => ⌜Contained e env.now batch (some resp) run⌝⟩⦄ := by
  have hattempt := fun step => env.attempt_keeps step (Untouched e)
  mvcgen [markAcked, onEngine, hattempt]
  · rename_i run h _
    exact ⟨Or.inr (OutboxQueue.rows_setWhere_congr h.rows _ _ _), h.localStore, h.resolver⟩
  · exact fun h => h.contained env.now batch (some resp)
  · rename_i run h
    exact ⟨Or.inl h.rows, h.localStore, h.resolver⟩

/-- Whether or not the loop raises, the outbox stays as it was. -/
theorem applyPulled_spec (batch : List (Operation V)) (resp : SyncPullResponse V)
    (dicts : List (OpDict V)) :
    ⦃fun run => ⌜Taken e env.now resp e.localStore run⌝⦄ env.applyPulled dicts
    ⦃post⟨fun tally run => ⌜Taken e env.now resp
            ((Operation.decoded dicts).foldl e.conflictResolver.process e.localStore) run ∧
          dicts.map Operation.fromDict = (Operation.decoded dicts).map Except.ok ∧
          tally.pulled = (Operation.decoded dicts).length⌝,
      fun _ run => ⌜Contained e env.now batch (some resp) run⌝⟩⦄ := by
  mvcgen [applyPulled, onEngine]
  · rename_i run h _ _ _ _
    obtain ⟨hidentity, houtbox⟩ := run.engine.pullLoop_frame env.faults dicts
    have hloop : Taken e env.now resp (run.engine.pullLoop env.faults dicts).engine.localStore
        { run with engine := (run.engine.pullLoop env.faults dicts).engine } :=
      ⟨houtbox ▸ h.rows, rfl, (Engine.resolver_of_identity hidentity).trans h.resolver⟩
    exact hloop.contained batch
  · rename_i run h _ _ hraised
    obtain ⟨hidentity, houtbox⟩ := run.engine.pullLoop_frame env.faults dicts
    have hdone := Engine.pullLoop_done hraised
    refine ⟨⟨houtbox ▸ h.rows, ?_, (Engine.resolver_of_identity hidentity).trans h.resolver⟩,
      Engine.pullLoop_decodes hraised, hdone.pulled⟩
    rw [← h.resolver, ← h.localStore]
    exact hdone.localStore

theorem auditSync_keeps (peerNodeId : String) (P : SyncRun V → Prop)
    (hP : ∀ run audit, P run → P { run with engine := { run.engine with audit } }) :
    ⦃fun run => ⌜P run⌝⦄ env.auditSync peerNodeId
    ⦃post⟨fun _ run => ⌜P run⌝, fun _ run => ⌜P run⌝⟩⦄ := by
  have hattempt := fun step => env.attempt_keeps step P
  mvcgen [auditSync, onEngine, hattempt]
  · rename_i run h _ _
    exact hP run _ h
  · rename_i run h _
    exact hP run _ h
  · rename_i run h _ _
    exact hP run _ h

theorem acceptResponse_spec (batch : List (Operation V)) (resp : SyncPullResponse V) :
    ⦃fun run => ⌜Untouched e run⌝⦄ env.acceptResponse resp
    ⦃post⟨fun _ run => ⌜Ended e env.now batch (some resp) run⌝,
      fun _ run => ⌜Contained e env.now batch (some resp) run⌝⟩⦄ := by
  have hattempt := fun step => env.attempt_keeps step (Ended e env.now batch (some resp))
  have haudit := env.auditSync_keeps resp.nodeId (Ended e env.now batch (some resp))
    fun run audit h => ⟨⟨h.rows, h.localStore⟩, h.settled⟩
  have hmark := env.markAcked_spec e batch resp
  have happly := env.applyPulled_spec e batch resp
  mvcgen [acceptResponse, unpackPulled, onEngine, onSession, hattempt, haudit, hmark, happly]
  · rename_i h _ _
    exact h.contained batch
  · rename_i dicts hunpack tally run h _
    have hcontained := h.1.contained batch
    exact ⟨⟨hcontained.rows, hcontained.localStore⟩, fun _ => ⟨resp, rfl,
      dicts, Operation.decoded dicts, hunpack, h.2.1, h.1.localStore, h.2.2⟩⟩
  · rename_i run h _
    exact ⟨⟨h.rows, h.localStore⟩, h.settled⟩
  · exact id
  · exact Ended.toContained
  · exact Ended.toContained

theorem receive_spec (batch : List (Operation V)) (operationCount : ℕ) (x : Exchange V) :
    ⦃fun run => ⌜Sent e batch run⌝⦄ env.receive operationCount x
    ⦃post⟨fun _ run => ⌜Ended e env.now batch x.accepted run⌝,
      fun _ run => ⌜Contained e env.now batch x.accepted run⌝⟩⦄ := by
  have hfail := env.failBatch_spec e batch
  have haccept := env.acceptResponse_spec e batch
  mvcgen [receive, onSession, hfail, haccept]
  · rename_i run h
    exact h.contained env.now batch none
  · rename_i run h _
    exact ⟨⟨h.rows, h.localStore, h.resolver⟩, h.pendingOps⟩
  · rename_i run h _
    exact ⟨Or.inl h.rows, fun _ => h.localStore⟩
  · rename_i run h _ _
    exact ⟨⟨h.rows, h.localStore, h.resolver⟩, h.pendingOps⟩
  · rename_i resp _ _ _ _ hresp _ run
    rw [Exchange.accepted, if_pos hresp]
    exact id
  · rename_i resp _ _ _ _ hresp _ run
    rw [Exchange.accepted, if_pos hresp]
    exact id
  · rename_i run h _ _
    exact ⟨h.rows, h.localStore, h.resolver⟩
  · rename_i resp _ _ _ _ hresp _ run
    rw [Exchange.accepted, if_neg hresp]
    exact id
  · rename_i resp _ _ _ _ hresp _ run
    rw [Exchange.accepted, if_neg hresp]
    exact id

/-- All statements before the exchange have gone through, or the tables are as they were. -/
theorem prepare_spec (bandwidthBps : ℤ) :
    ⦃fun run => ⌜Untouched e run⌝⦄ env.prepare bandwidthBps
    ⦃post⟨fun _ _ => ⌜env.Sends⌝, fun _ run => ⌜Untouched e run⌝⟩⦄ := by
  have hattempt := fun step => env.attempt_spec step (Untouched e)
  mvcgen [prepare, onEngine, hattempt]
  · rename_i h
    exact h.1
  · rename_i h
    exact h.1
  · rename_i h _
    exact ⟨(OutboxQueue.rows_lock _).trans h.1.rows, h.1.localStore, h.1.resolver⟩
  · rename_i h _
    exact ⟨h.1.rows, h.1.localStore, h.1.resolver⟩
  · rename_i h
    exact h.1
  · rename_i h
    exact h.1
  · rename_i h
    exact h.1
  · simp only [Sends, preparation, List.forall_mem_cons]
    grind

/-- The request of a call that gets to send it. -/
theorem prepare_of_sends (hsends : env.Sends) (bandwidthBps : ℤ) :
    (env.prepare bandwidthBps).run { engine := { e with state := .syncing } } =
      .ok (e.beginSync env.sessionId bandwidthBps).2.2
        { engine := (e.beginSync env.sessionId bandwidthBps).1
          pendingOps := (e.beginSync env.sessionId bandwidthBps).2.1 } := by
  have hattempt : ∀ step ∈ preparation, env.attempt step = pure () := fun step hstep => by
    rw [attempt, hsends step hstep]
  have hpending : Engine.pendingBatch { e with state := .syncing, outbox := e.outbox.lock.1 }
      bandwidthBps = e.pendingBatch bandwidthBps := by
    unfold Engine.pendingBatch OutboxQueue.getPending
    rw [OutboxQueue.rows_lock]
    rfl
  unfold prepare Engine.beginSync
  simp only [preparation, List.forall_mem_cons] at hattempt
  simp only [hattempt, pure_bind, ← hpending]
  rfl

theorem syncNow_of_guard {bandwidthBps : ℤ} {run : SyncRun V}
    (h : (tryFinally (tryCatch (env.pushPull bandwidthBps) raiseOut)
      (onEngine fun e => { e with outbox := e.outbox.unlock })).run
        { engine := { e with state := .syncing } } = .ok () run) :
    (env.syncNow (some bandwidthBps)).run { engine := e } = .ok run.session run := by
  unfold syncNow
  exact (run_bind_ok rfl _).trans (run_bind_ok h _)

/-- However the `try` block is left, the session is returned and the lock given up. -/
theorem syncNow_eq (bandwidthBps : ℤ) :
    ∃ run, run = caught ((env.pushPull bandwidthBps).run { engine := { e with state := .syncing } }) ∧
      (env.syncNow (some bandwidthBps)).run { engine := e } = .ok run.session run.unlocked := by
  cases h : (env.pushPull bandwidthBps).run { engine := { e with state := .syncing } } with
  | ok a run => exact ⟨run, rfl, env.syncNow_of_guard e (run_guard_ok h rfl)⟩
  | error exc run =>
    exact ⟨run.raisedOut exc, rfl, env.syncNow_of_guard e (run_guard_error h rfl rfl)⟩

/-- The `except` clause says that the call has failed. -/
theorem ended_caught {batch : List (Operation V)} {acc : Option (SyncPullResponse V)}
    {P : SyncRun V → Prop} {block : SyncM V Unit} {run : SyncRun V}
    (hblock : ⦃fun run => ⌜P run⌝⦄ block ⦃post⟨fun _ run => ⌜Ended e env.now batch acc run⌝,
      fun _ run => ⌜Contained e env.now batch acc run⌝⟩⦄) (hrun : P run) :
    Ended e env.now batch acc (caught (block.run run)) := by
  have hwp := hblock run hrun
  simp only [wp, PredTrans.apply] at hwp
  cases h : block.run run with
  | ok a run' =>
    rw [h] at hwp
    exact hwp
  | error exc run' =>
    rw [h] at hwp
    exact Contained.ended ⟨hwp.rows, hwp.localStore⟩ rfl

theorem pushPull_ended (bandwidthBps : ℤ) :
    Ended e env.now (env.transmitted e (some bandwidthBps)) (env.accepted e (some bandwidthBps))
      (caught ((env.pushPull bandwidthBps).run { engine := { e with state := .syncing } })) := by
  by_cases hsends : env.Sends
  · rw [pushPull, run_bind_ok (env.prepare_of_sends e hsends bandwidthBps), transmitted, accepted,
      if_pos hsends, if_pos hsends]
    have hsent : Sent e (e.pendingBatch bandwidthBps)
        { engine := (e.beginSync env.sessionId bandwidthBps).1
          pendingOps := e.pendingBatch bandwidthBps } :=
      ⟨⟨OutboxQueue.rows_lock _, rfl, rfl⟩, rfl⟩
    exact env.ended_caught e (env.receive_spec e _ _ _) hsent
  · have hstart : Untouched e { engine := { e with state := .syncing } } := ⟨rfl, rfl, rfl⟩
    have hwp := env.prepare_spec e bandwidthBps _ hstart
    simp only [wp, PredTrans.apply] at hwp
    rw [transmitted, accepted, if_neg hsends, if_neg hsends]
    cases h : (env.prepare bandwidthBps).run { engine := { e with state := .syncing } } with
    | ok pushReq run =>
      rw [h] at hwp
      exact absurd hwp hsends
    | error exc run =>
      rw [h] at hwp
      rw [pushPull, run_bind_error h]
      exact Contained.ended ⟨Or.inl hwp.rows, fun _ => hwp.localStore⟩ rfl

theorem syncNow_ended (link : Option ℤ) :
    ∃ run, (env.syncNow link).run { engine := e } = .ok run.session run ∧
      Ended e env.now (env.transmitted e link) (env.accepted e link) run ∧
      run.engine.outbox.syncLocked = (e.outbox.syncLocked && link.isNone) := by
  cases link with
  | none =>
    refine ⟨_, rfl, ?_, (Bool.and_true _).symm⟩
    exact Contained.ended ⟨Or.inl rfl, fun _ => rfl⟩ rfl
  | some bandwidthBps =>
    have h := env.pushPull_ended e bandwidthBps
    obtain ⟨run, hrun, hreturns⟩ := env.syncNow_eq e bandwidthBps
    rw [← hrun] at h
    exact ⟨run.unlocked, hreturns, ⟨⟨h.rows, h.localStore⟩, h.settled⟩, (Bool.and_false _).symm⟩

/-! ### Where nothing raises -/

theorem run_get {α : Type} (f : SyncRun V → SyncM V α) (run : SyncRun V) :
    (get >>= f).run run = (f run).run run := rfl

theorem run_onEngine {α : Type} (g : Engine V → Engine V) (f : Unit → SyncM V α) (run : SyncRun V) :
    (onEngine g >>= f).run run = (f ()).run { run with engine := g run.engine } := rfl

theorem run_onSession {α : Type} (g : SyncSession → SyncSession) (f : Unit → SyncM V α)
    (run : SyncRun V) :
    (onSession g >>= f).run run = (f ()).run { run with session := g run.session } := rfl

theorem failBatch_of_none (hattempt : ∀ step, env.attempt step = pure ()) (errMsg : String)
    (ops : List (Operation V)) :
    (env.failBatch errMsg).run
        { engine := e, session := { opsPushed := ops.length }, pendingOps := ops } =
      .ok () { engine := (e.failBatch ops errMsg).1, session := (e.failBatch ops errMsg).2
               pendingOps := ops } := by
  unfold failBatch
  simp only [hattempt, pure_bind]
  cases ops with
  | nil =>
    have hnil : e.outbox.markFailed [] errMsg = e.outbox := OutboxQueue.setWhere_nil _ _ _
    rw [Engine.failBatch, List.map_nil, hnil]
    rfl
  | cons op ops => rfl

theorem markAcked_of_none (hattempt : ∀ step, env.attempt step = pure ()) (resp : SyncPullResponse V)
    (run : SyncRun V) :
    (env.markAcked resp).run run = .ok () { run with engine := { run.engine with
      outbox := run.engine.outbox.markSynced resp.ackedOpIds env.now } } := by
  unfold markAcked
  simp only [hattempt, pure_bind]
  cases hacks : resp.ackedOpIds with
  | nil =>
    have hnil : run.engine.outbox.markSynced [] env.now = run.engine.outbox :=
      OutboxQueue.setWhere_nil _ _ _
    rw [hnil]
    rfl
  | cons id ids => rfl

theorem auditSync_of_none (hattempt : ∀ step, env.attempt step = pure ()) (peer : String)
    (run : SyncRun V) :
    (env.auditSync peer).run run =
      .ok () { run with engine := run.engine.auditSync peer run.session } := by
  unfold auditSync Engine.auditSync
  simp only [hattempt, pure_bind, run_get]
  split_ifs with henabled hpulled
  · exact congrArg (fun audit => EStateM.Result.ok () { run with engine := { run.engine with audit } })
      (List.append_assoc _ [_] [_])
  · rfl
  · rfl

theorem applyPulled_ok {dicts : List (OpDict V)} {run : SyncRun V}
    (h : (run.engine.pullLoop env.faults dicts).raised = none) :
    (env.applyPulled dicts).run run = .ok (run.engine.pullLoop env.faults dicts).tally
      { run with engine := (run.engine.pullLoop env.faults dicts).engine } := by
  unfold applyPulled
  simp only [run_get, run_onEngine, h]
  rfl

theorem applyPulled_error {dicts : List (OpDict V)} {run : SyncRun V} {exc : String}
    (h : (run.engine.pullLoop env.faults dicts).raised = some exc) :
    (env.applyPulled dicts).run run =
      .error exc { run with engine := (run.engine.pullLoop env.faults dicts).engine } := by
  unfold applyPulled
  simp only [run_get, run_onEngine, h]
  rfl

theorem acceptResponse_of_none (hattempt : ∀ step, env.attempt step = pure ())
    (resp : SyncPullResponse V) (ops : List (Operation V)) (run : SyncRun V)
    (hsession : run.session = { opsPushed := ops.length }) :
    ((caught ((env.acceptResponse resp).run run)).engine,
        (caught ((env.acceptResponse resp).run run)).session) =
      run.engine.acceptResponse ops env.now env.faults resp := by
  unfold acceptResponse Engine.acceptResponse
  rw [run_bind_ok (env.markAcked_of_none hattempt resp run)]
  unfold unpackPulled
  cases Engine.unpackResponse resp with
  | error exc =>
    change (Engine.mk .., { run.session with status := "failed", error := some exc }) = _
    rw [hsession]
    rfl
  | ok dicts =>
    simp only [pure_bind]
    cases hraised : (Engine.pullLoop { run.engine with
        outbox := run.engine.outbox.markSynced resp.ackedOpIds env.now } env.faults dicts).raised with
    | some exc =>
      rw [run_bind_error (env.applyPulled_error hraised)]
      change (Engine.mk .., { run.session with status := "failed", error := some exc }) = _
      rw [hsession]
      rfl
    | none =>
      rw [run_bind_ok (env.applyPulled_ok hraised)]
      simp only [run_onSession]
      rw [run_bind_ok (env.auditSync_of_none hattempt _ _)]
      simp only [run_onEngine, hattempt, hsession]
      rfl

theorem receive_of_none (hattempt : ∀ step, env.attempt step = pure ()) (ops : List (Operation V))
    (x : Exchange V) :
    ((caught ((env.receive ops.length x).run { engine := e, pendingOps := ops })).unlocked.engine,
        (caught ((env.receive ops.length x).run { engine := e, pendingOps := ops })).session) =
      e.finishSync ops env.now env.faults x := by
  unfold receive Engine.finishSync
  cases x with
  | notSent exc => rfl
  | undecodable exc => rfl
  | failed error =>
    simp only [run_onSession]
    rw [env.failBatch_of_none e hattempt error ops]
    rfl
  | response resp =>
    simp only [run_onSession]
    by_cases hresp : resp.status = "error"
    · simp only [if_pos hresp]
      rw [env.failBatch_of_none e hattempt resp.errMsg ops]
      rfl
    · simp only [if_neg hresp]
      have haccept := env.acceptResponse_of_none hattempt resp ops
        ⟨e, { opsPushed := ops.length }, ops⟩ rfl
      rw [← haccept]
      rfl

/-- Where no statement raises, this is the `sync_now` of a link that may fail. -/
theorem syncNow_of_none (hnone : ∀ step, env.raises step = none) (link : Option ℤ) :
    ∃ run, (env.syncNow link).run { engine := e } = .ok run.session run ∧
      (run.engine, run.session) = e.syncNow env.sessionId link env.now env.faults env.exchange := by
  have hattempt : ∀ step, env.attempt step = pure () := fun step => by rw [attempt, hnone]
  cases link with
  | none => exact ⟨_, rfl, rfl⟩
  | some bandwidthBps =>
    obtain ⟨run, hrun, hreturns⟩ := env.syncNow_eq e bandwidthBps
    refine ⟨run.unlocked, hreturns, ?_⟩
    rw [pushPull, run_bind_ok (env.prepare_of_sends e (fun step _ => hnone step) bandwidthBps)] at hrun
    rw [hrun]
    exact env.receive_of_none _ hattempt _ _

end SyncEnv

/-- Whatever the link answers and whichever statement raises, `sync_now` returns its session and
leaves the outbox unlocked. It changes the delivery columns of the batch it has sent or of what the
link has acknowledged and no others, takes nothing over without an accepted response, and calls
itself completed only with all operations of that response settled. -/
theorem SyncEnv.sync_now_fails_cleanly (env : SyncEnv V) (e : Engine V) (link : Option ℤ)
    (hfree : e.outbox.isLocked = false) :
    ∃ session run, (env.syncNow link).run { engine := e } = .ok session run ∧
      run.engine.outbox.isLocked = false ∧
      List.Forall₂ (fun r r' => r'.asCreated = r.asCreated ∧
          (r' ≠ r → r.opId ∈ (env.transmitted e link).map Operation.opId ∨
            ∃ resp, env.accepted e link = some resp ∧ r.opId ∈ resp.ackedOpIds))
        e.outbox.rows run.engine.outbox.rows ∧
      (env.accepted e link = none →
        List.Forall₂ (fun r r' => r'.syncState = .synced → r.syncState = .synced)
          e.outbox.rows run.engine.outbox.rows ∧ run.engine.localStore = e.localStore) ∧
      (session.status = "completed" →
        ∃ (resp : SyncPullResponse V) (dicts : List (OpDict V)) (ops : List (Operation V)),
          env.accepted e link = some resp ∧ Engine.unpackResponse resp = .ok dicts ∧
            dicts.map Operation.fromDict = ops.map Except.ok ∧
            run.engine.localStore = ops.foldl e.conflictResolver.process e.localStore ∧
            session.opsPulled = ops.length) := by
  obtain ⟨run, hreturns, h, hlocked⟩ := env.syncNow_ended e link
  refine ⟨run.session, run, hreturns, ?_, h.toContained.kept, fun hnone => ?_, fun hcompleted => ?_⟩
  · have hstart : e.outbox.syncLocked = false := hfree
    rw [hstart] at hlocked
    exact hlocked
  · exact ⟨h.toContained.unsynced hnone, h.localStore hnone⟩
  · obtain ⟨resp, hacc, dicts, ops, hsettled⟩ := h.settled hcompleted
    exact ⟨resp, dicts, ops, hacc, hsettled⟩

/-- A device with one operation to send. -/
def sampleDevice : Engine ℕ :=
  ((Engine.create "a").call { opType := .create, collection := "incidents", recordId := "s"
                              opId := "1", now := 6, enqueuedAt := 6 }).1

/-- A peer whose answer does not deserialize. -/
def garbledLink : SyncEnv ℕ where
  sessionId := "s1"
  now := 7
  raises := fun _ => none
  exchange := fun _ => .undecodable "Unpack failed: incomplete input"
  faults := noFaults

/-- A peer that acknowledges the operation it is sent, where the audit log then cannot be written. -/
def unloggedLink : SyncEnv ℕ where
  sessionId := "s1"
  now := 7
  raises := fun step => if step = .auditPush then some "database or disk is full" else none
  exchange := fun _ => .response
    { nodeId := "hq", sessionId := "s1", status := "ok", ackedOpIds := ["1"] }
  faults := noFaults

theorem sync_now_fails_cleanly_example :
    (∃ session run,
      (garbledLink.syncNow (some 64000)).run { engine := sampleDevice } = .ok session run ∧
      run.engine.outbox.isLocked = false ∧ run.engine.localStore = sampleDevice.localStore) ∧
    ∃ session run,
      (unloggedLink.syncNow (some 64000)).run { engine := sampleDevice } = .ok session run ∧
      run.engine.outbox.isLocked = false ∧
      List.Forall₂ (fun r r' => r'.asCreated = r.asCreated)
        sampleDevice.outbox.rows run.engine.outbox.rows := by
  have hfree : sampleDevice.outbox.isLocked = false := by decide +kernel
  constructor
  · obtain ⟨session, run, hreturns, hunlocked, -, hnothing, -⟩ :=
      SyncEnv.sync_now_fails_cleanly garbledLink sampleDevice (some 64000) hfree
    exact ⟨session, run, hreturns, hunlocked, (hnothing (by decide +kernel)).2⟩
  · obtain ⟨session, run, hreturns, hunlocked, hrows, -, -⟩ :=
      SyncEnv.sync_now_fails_cleanly unloggedLink sampleDevice (some 64000) hfree
    exact ⟨session, run, hreturns, hunlocked, hrows.imp fun _ _ h => h.1⟩

end Dhava
