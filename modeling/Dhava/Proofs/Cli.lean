import Dhava.Proofs.Acknowledge
import Dhava.Proofs.AllOrNothing
import Dhava.Proofs.Request
import Dhava.Proofs.SendQueue
import Dhava.Spec.Cli

/-! The outbox under the command line. Every command starts with a new engine, which makes the
failed rows pending again, so a sync that fails takes nothing out of the queue: what a node has
written waits in its order until a sync is acknowledged. -/

namespace Dhava

open Foundations

variable {V : Type}

namespace OutboxQueue

/-- What is not acknowledged, as it was created and in the order of sending. -/
def waiting (q : OutboxQueue V) : List (Operation V) :=
  ((q.rows.filter fun op => op.syncState ≠ .synced).map Operation.asCreated).insertionSort SendsBefore

variable {q q' : OutboxQueue V}

/-- Only the sync columns change, and no row becomes synced or stops to be. -/
theorem waiting_of_map {f : Operation V → Operation V} (h : q'.rows = q.rows.map f)
    (hf : ∀ r ∈ q.rows, (f r).asCreated = r.asCreated ∧
      ((f r).syncState = .synced ↔ r.syncState = .synced)) : q'.waiting = q.waiting := by
  have hfilter : q.rows.filter ((fun op => decide (op.syncState ≠ .synced)) ∘ f) =
      q.rows.filter fun op => decide (op.syncState ≠ .synced) :=
    List.filter_congr fun r hr => decide_eq_decide.2 (not_congr (hf r hr).2)
  unfold waiting
  rw [h, List.filter_map, List.map_map, hfilter]
  refine congrArg (List.insertionSort SendsBefore) (List.map_congr_left fun r hr => ?_)
  exact (hf r (List.mem_of_mem_filter hr)).1

theorem waiting_congr (h : q'.rows = q.rows) : q'.waiting = q.waiting := by
  unfold waiting
  rw [h]

theorem waiting_resetInFlight (q : OutboxQueue V) : q.resetInFlight.waiting = q.waiting := by
  refine waiting_of_map rfl fun r _ => ?_
  split_ifs with hfailed
  · rw [decide_eq_true_eq] at hfailed
    exact ⟨rfl, by simp [hfailed]⟩
  · exact ⟨rfl, Iff.rfl⟩

theorem waiting_markFailed {ids : List String} (error : String)
    (hids : ∀ r ∈ q.rows, r.opId ∈ ids → r.syncState ≠ .synced) :
    (q.markFailed ids error).waiting = q.waiting := by
  refine waiting_of_map (rows_setWhere q ids _ _) fun r hr => ?_
  split_ifs with hid
  · exact ⟨rfl, by simp [hids r hr hid]⟩
  · exact ⟨rfl, Iff.rfl⟩

theorem waiting_enqueue {op : Operation V} (h : q'.rows = q.rows ++ [op])
    (hop : op.syncState = .pending) :
    q'.waiting = insertBehind SendsBefore op.asCreated q.waiting := by
  unfold waiting
  rw [h, List.filter_append, List.map_append, List.filter_singleton, hop]
  exact insertionSort_concat SendsBefore _ op.asCreated

theorem nodup_waiting (q : OutboxQueue V) : (q.waiting.map Operation.opId).Nodup := by
  have hperm := (List.perm_insertionSort SendsBefore
    ((q.rows.filter fun op => op.syncState ≠ .synced).map Operation.asCreated)).map Operation.opId
  rw [waiting, hperm.nodup_iff, List.map_map]
  exact q.table.nodup.sublist (List.filter_sublist.map Operation.opId)

/-- Acknowledging a front part of what waits leaves what is behind it. -/
theorem waiting_markSynced {batch : List (Operation V)} {k : ℕ}
    (hbatch : batch.map Operation.asCreated = q.waiting.take k) (now : ℚ) :
    (q.markSynced (batch.map Operation.opId) now).waiting = q.waiting.drop k := by
  have hids : batch.map Operation.opId = (q.waiting.take k).map Operation.opId := by
    rw [← hbatch, List.map_map]
    rfl
  have hrows : (q.markSynced (batch.map Operation.opId) now).rows.filter
        (fun op => decide (op.syncState ≠ .synced)) =
      (q.rows.filter fun op => decide (op.syncState ≠ .synced)).filter
        fun op => !decide (op.opId ∈ batch.map Operation.opId) := by
    have h := filter_map_ite (p := fun op : Operation V => decide (op.syncState ≠ .synced))
      (c := fun op => decide (op.opId ∈ batch.map Operation.opId))
      (f := fun op => { op with syncState := .synced, syncedAt := some now }) q.rows
      fun _ _ _ => rfl
    unfold markSynced
    rw [rows_setWhere]
    simpa using h
  have hmap := List.filter_map (p := fun op => !decide (op.opId ∈ batch.map Operation.opId))
    (f := Operation.asCreated) (l := q.rows.filter fun op => decide (op.syncState ≠ .synced))
  unfold waiting
  rw [hrows]
  refine (congrArg (List.insertionSort SendsBefore) hmap.symm).trans ?_
  rw [← filter_insertionSort, hids]
  exact filter_not_mem_take q.nodup_waiting k

/-- Without failed or conflicted rows, what waits is what is sent. -/
theorem map_asCreated_queue (h : ∀ r ∈ q.rows, r.syncState = .pending ∨ r.syncState = .synced) :
    q.queue.map Operation.asCreated = q.waiting := by
  have hfilter : (q.rows.filter fun op => decide (op.syncState = .pending)) =
      q.rows.filter fun op => decide (op.syncState ≠ .synced) := by
    refine List.filter_congr fun r hr => decide_eq_decide.2 ?_
    rcases h r hr with hr | hr <;> simp [hr]
  rw [queue_eq, hfilter]
  exact List.map_insertionSort _ _ _ _ fun a _ b _ => Iff.rfl

end OutboxQueue

namespace Engine

instance (e : Engine V) (c : LocalCall V) (ends : WriteStep → TxEnd) :
    Decidable (e.CommitsEntry c ends) := inferInstanceAs (Decidable (_ ∧ _ ∧ _))

theorem callUnder_config (e : Engine V) (c : LocalCall V) (ends : WriteStep → TxEnd) :
    (e.callUnder c ends).1.config = e.config := by
  have haudit : ∀ (e : Engine V) op (record : Record V) audit,
      (e.auditUnder op record audit).1.config = e.config := by
    intro e op record audit
    unfold auditUnder auditLocalWrite
    split_ifs with henabled
    · rcases audit with - | exc | (- | -) <;> rfl
    · rfl
  unfold callUnder
  cases ends .readClock with
  | raised exc => rfl
  | stopped b => rfl
  | committed =>
    simp only
    cases ends .apply with
    | raised exc => rfl
    | stopped b => cases b <;> rfl
    | committed =>
      unfold enqueueUnder
      simp only
      rcases ends .enqueue with - | exc | (- | -) <;>
        cases ((e.stamp c).1.applyLocal (e.stamp c).2).1.outbox.enqueue (e.stamp c).2 <;>
        first | rfl | exact haudit _ _ _ _

end Engine

namespace HTTPTransport

/-- A response that is processed is one the server made for the request. -/
theorem accepted_post {req : SyncPushRequest V} {resp : SyncPullResponse V} {posts : List Post}
    {srv : Server V} (h : (post srv req posts).2.accepted = some resp) :
    resp.ackedOpIds = (Server.requestOps req).map Operation.opId := by
  induction posts generalizing srv with
  | nil => cases h
  | cons p rest ih =>
    cases p with
    | unanswered handling => exact ih h
    | garbled handling exc => cases h
    | answered d =>
      have hstatus := srv.handleSyncRequest_status d.faults d.now req
      have haccepted : (if (srv.handleSyncRequest d.faults d.now req).2.status = "error" then none
          else some (srv.handleSyncRequest d.faults d.now req).2) = some resp := h
      split_ifs at haccepted with herror
      obtain rfl := Option.some.inj haccepted
      exact (srv.handleSyncRequest_ok _ _ _ (hstatus.resolve_right herror)).acked

end HTTPTransport

namespace Site

def waiting (s : Site V) (n : String) : List (Operation V) :=
  match s.homes n with
  | none => []
  | some e => e.outbox.waiting

/-- The database of a node is that of an engine with the default configuration, and none of
its rows has a state that no engine ever gives a row. -/
structure Kept (n : String) (e : Engine V) : Prop where
  config : e.config = {}
  states : ∀ r ∈ e.outbox.rows, r.syncState ≠ .conflicted

/-- What a command finds. -/
structure Opened (s : Site V) (n : String) : Prop where
  config : (s.engine n).config = {}
  states : ∀ r ∈ (s.engine n).outbox.rows, r.syncState = .pending ∨ r.syncState = .synced
  waiting : (s.engine n).outbox.waiting = s.waiting n

variable {s : Site V} {n m : String}

theorem opened (h : ∀ e, s.homes n = some e → Kept n e) : s.Opened n := by
  cases hhome : s.homes n with
  | none =>
    have hengine : s.engine n = Engine.create n := by
      unfold engine
      rw [hhome]
    refine ⟨hengine ▸ rfl, ?_, ?_⟩
    · rw [hengine]
      exact fun r hr => by cases hr
    · rw [hengine, waiting, hhome]
      rfl
  | some e =>
    have hkept := h e hhome
    have hengine : s.engine n = e.restart := by
      unfold engine
      rw [hhome]
    refine ⟨hengine ▸ hkept.config, ?_, ?_⟩
    · rw [hengine]
      intro r hr
      obtain ⟨r₀, hr₀, rfl⟩ := OutboxQueue.mem_resetInFlight.1 hr
      have hstate := hkept.states r₀ hr₀
      split_ifs with hfailed
      · exact Or.inl rfl
      · cases hr₀ : r₀.syncState with
        | pending => exact Or.inl rfl
        | synced => exact Or.inr rfl
        | failed => exact absurd hr₀ hfailed
        | conflicted => exact absurd hr₀ hstate
    · rw [hengine, waiting, hhome]
      exact e.outbox.waiting_resetInFlight

/-- With the estimate of a new HTTP transport a session sends the first 50, of all priorities. -/
theorem Opened.batch (h : s.Opened n) :
    ((s.engine n).pendingBatch 1000000).map Operation.asCreated = (s.waiting n).take 50 := by
  have hall : (s.engine n).outbox.eligible .p4 = (s.engine n).outbox.queue := by
    refine List.filter_eq_self.2 fun op _ => ?_
    cases op.priority <;> rfl
  have hbatch : (s.engine n).pendingBatch 1000000 = (s.engine n).outbox.queue.take 50 := by
    unfold Engine.pendingBatch Engine.calculateBatchSize Engine.calculatePriorityCutoff
    rw [h.config, OutboxQueue.getPending_eq]
    change OutboxQueue.limited 50 ((s.engine n).outbox.eligible .p4) = _
    rw [hall]
    rfl
  rw [hbatch, List.map_take, OutboxQueue.map_asCreated_queue h.states, h.waiting]

/-! ### One command -/

/-- The call of a `write` commits its entry. -/
def writes (s : Site V) (n : String) (w : WriteArgs V) : Option (Operation V) :=
  match w.data, w.priority with
  | some data, some priority =>
    let c := w.call data priority
    if Engine.CommitsRecord w.ends ∧ (s.engine n).CommitsEntry c w.ends then
      some ((s.engine n).stamped c)
    else none
  | _, _ => none

/-- What a command is to the queue of node `n`: a write that commits its entry pushes the
operation, and a sync whose response is processed takes out 50. -/
def queueEvent (n : String) (s : Site V) : String × Command V → Option (QueueEvent (Operation V))
  | (m, .write w) => if m = n then (s.writes n w).map .push else none
  | (m, .sync args) =>
    if m = n ∧ args.available = true then (s.exchange n args).2.accepted.map fun _ => .pop 50
    else none
  | _ => none

/-- A command is a step of the queue. -/
structure QueueStep (n : String) (s s' : Site V) (ev : Option (QueueEvent (Operation V))) : Prop where
  waiting : s'.waiting n =
    ev.elim (s.waiting n) (QueueEvent.step OutboxQueue.SendsBefore (s.waiting n))
  kept : ∀ e, s'.homes n = some e → Kept n e

theorem queueStep_other {s s' : Site V} (h : s'.homes n = s.homes n)
    (hkept : ∀ e, s.homes n = some e → Kept n e) : QueueStep n s s' none := by
  refine ⟨?_, h ▸ hkept⟩
  unfold waiting
  rw [h]
  rfl

theorem waiting_save (s : Site V) (n : String) (e : Engine V) :
    (s.save n e).waiting n = e.outbox.waiting := by
  have hhome : (s.save n e).homes n = some e := Function.update_self ..
  unfold waiting
  rw [hhome]

theorem queueStep_save {s : Site V} {e : Engine V} {ev : Option (QueueEvent (Operation V))}
    (server : Server V) (hkept : Kept n e)
    (h : e.outbox.waiting =
      ev.elim (s.waiting n) (QueueEvent.step OutboxQueue.SendsBefore (s.waiting n))) :
    QueueStep n s (({ s with server } : Site V).save n e) ev := by
  refine ⟨(waiting_save _ n e).trans h, fun e' he' => ?_⟩
  have he : (({ s with server } : Site V).save n e).homes n = some e := Function.update_self ..
  exact Option.some.inj (he.symm.trans he') ▸ hkept

/-- A command that only opens the database. -/
theorem Opened.queueStep_open (h : s.Opened n) : QueueStep n s (s.save n (s.engine n)) none := by
  refine queueStep_save s.server ⟨h.config, fun r hr => ?_⟩ h.waiting
  rcases h.states r hr with hr | hr <;> rw [hr] <;> decide

theorem Opened.queueStep_write (h : s.Opened n) (hkept : ∀ e, s.homes n = some e → Kept n e)
    (w : WriteArgs V) : QueueStep n s (s.write n w).1 ((s.writes n w).map .push) := by
  unfold write writes
  rcases w.data with - | data
  · exact queueStep_other rfl hkept
  rcases w.priority with - | priority
  · exact h.queueStep_open
  simp only
  set c := w.call data priority
  have hleft := (s.engine n).callUnder_left c w.ends
  have hconfig : ((s.engine n).callUnder c w.ends).1.config = {} :=
    ((s.engine n).callUnder_config c w.ends).trans h.config
  have hold : ∀ r ∈ (s.engine n).outbox.rows, r.syncState ≠ .conflicted := by
    intro r hr
    rcases h.states r hr with hr | hr <;> rw [hr] <;> decide
  by_cases hcommits : Engine.CommitsRecord w.ends ∧ (s.engine n).CommitsEntry c w.ends
  · have hrows := hleft.entry hcommits.1 hcommits.2
    rw [if_pos hcommits]
    refine queueStep_save s.server ⟨hconfig, ?_⟩ ?_
    · rw [hrows, List.forall_mem_append, List.forall_mem_singleton]
      exact ⟨hold, by rw [Engine.stamped_syncState]; decide⟩
    · rw [OutboxQueue.waiting_enqueue hrows rfl, h.waiting]
      rfl
  · have hsame : ((s.engine n).callUnder c w.ends).1.outbox = (s.engine n).outbox := by
      by_cases hrecord : Engine.CommitsRecord w.ends
      · exact hleft.noEntry hrecord fun hentry => hcommits ⟨hrecord, hentry⟩
      · exact (hleft.neither hrecord).2
    rw [if_neg hcommits]
    refine queueStep_save s.server ⟨hconfig, ?_⟩ ?_
    · rw [hsame]
      exact hold
    · rw [hsame]
      exact h.waiting

/-- A response that is processed acknowledges the batch that was sent. -/
theorem acked_exchange (s : Site V) (n : String) (args : SyncArgs) {resp : SyncPullResponse V}
    (h : (s.exchange n args).2.accepted = some resp) :
    resp.ackedOpIds = ((s.engine n).pendingBatch 1000000).map Operation.opId := by
  unfold exchange at h
  simp only at h
  split_ifs at h with havailable
  · rw [HTTPTransport.accepted_post h]
    exact congrArg (List.map Operation.opId) (Operation.decoded_map_toDict _)
  · cases h

/-- A session whose processed response, if any, acknowledges its batch. -/
theorem Opened.queueStep_session (h : s.Opened n) (server : Server V) (sessionId : String) (now : ℚ)
    (faults : ℕ → Option Fault) (x : Exchange V)
    (hacked : ∀ resp, x.accepted = some resp →
      resp.ackedOpIds = ((s.engine n).pendingBatch 1000000).map Operation.opId) :
    QueueStep n s
      (({ s with server } : Site V).save n
        ((s.engine n).syncNow sessionId (some 1000000) now faults fun _ => x).1)
      (x.accepted.map fun _ => .pop 50) := by
  have hidentity := ((s.engine n).syncNow_synced sessionId (some 1000000) now faults x).identity
  have hconfig := (congrArg (fun i => i.2.1) hidentity).trans h.config
  have hold : ∀ r ∈ (s.engine n).outbox.rows, r.syncState ≠ .conflicted := by
    intro r hr
    rcases h.states r hr with hr | hr <;> rw [hr] <;> decide
  rcases (s.engine n).rows_syncNow sessionId (some 1000000) now faults x with
    ⟨bandwidthBps, error, hlink, hmarks, hrows⟩ | ⟨bandwidthBps, resp, hlink, hresp, hrows⟩ |
      ⟨hidle, hrows⟩
  · obtain rfl := Option.some.inj hlink
    rw [Exchange.accepted_of_marksFailed hmarks]
    refine queueStep_save server ⟨hconfig, ?_⟩ ?_
    · rw [hrows]
      intro r hr
      obtain ⟨r₀, hr₀, rfl⟩ := OutboxQueue.mem_markFailed.1 hr
      split_ifs
      · exact fun hstate => by cases hstate
      · exact hold r₀ hr₀
    · have hsent : ∀ r ∈ (s.engine n).outbox.rows,
          r.opId ∈ ((s.engine n).pendingBatch 1000000).map Operation.opId → r.syncState ≠ .synced := by
        intro r hr hid
        rw [Engine.pending_of_sent hr hid]
        decide
      exact (OutboxQueue.waiting_congr hrows).trans
        ((OutboxQueue.waiting_markFailed error hsent).trans h.waiting)
  · obtain rfl := Option.some.inj hlink
    rw [hacked resp hresp] at hrows
    rw [hresp]
    refine queueStep_save server ⟨hconfig, ?_⟩ ?_
    · rw [hrows]
      intro r hr
      obtain ⟨r₀, hr₀, rfl⟩ := OutboxQueue.mem_markSynced.1 hr
      split_ifs
      · exact fun hstate => by cases hstate
      · exact hold r₀ hr₀
    · have hbatch := h.batch
      rw [← h.waiting] at hbatch
      rw [OutboxQueue.waiting_congr hrows, OutboxQueue.waiting_markSynced hbatch, h.waiting]
      rfl
  · have hnone : x.accepted = none := by
      rcases hidle with hlink | ⟨-, hnone⟩
      · cases hlink
      · exact hnone
    rw [hnone]
    refine queueStep_save server ⟨hconfig, ?_⟩ ?_
    · rw [hrows]
      exact hold
    · exact (OutboxQueue.waiting_congr hrows).trans h.waiting

theorem Opened.queueStep_sync (h : s.Opened n) (args : SyncArgs) :
    QueueStep n s (s.sync n args).1 (queueEvent n s (n, .sync args)) := by
  have hevent : queueEvent n s (n, .sync args) =
      if args.available = true then (s.exchange n args).2.accepted.map fun _ => .pop 50
      else none := by simp [queueEvent]
  rw [hevent]
  unfold sync
  cases args.available with
  | false =>
    refine queueStep_save s.server ⟨h.config, fun r hr => ?_⟩ h.waiting
    rcases h.states r hr with hr | hr <;> rw [hr] <;> decide
  | true =>
    exact h.queueStep_session (s.exchange n args).1 args.sessionId args.now args.faults
      (s.exchange n args).2 fun resp hresp => s.acked_exchange n args hresp

theorem queueStep_init (s : Site V) (n : String) (hkept : ∀ e, s.homes n = some e → Kept n e) :
    QueueStep n s (s.initDatabase n) none := by
  unfold initDatabase
  cases hhome : s.homes n with
  | none =>
    refine queueStep_save s.server ⟨rfl, fun r hr => by cases hr⟩ ?_
    unfold waiting
    rw [hhome]
    rfl
  | some e =>
    refine queueStep_save s.server (hkept e hhome) ?_
    unfold waiting
    rw [hhome]
    rfl

theorem Opened.queueStep_status (h : s.Opened n) (hkept : ∀ e, s.homes n = some e → Kept n e) :
    QueueStep n s (s.status n).1 none := by
  unfold status
  cases s.homes n with
  | none => exact queueStep_other rfl hkept
  | some e => exact h.queueStep_open

/-- A command leaves the databases of the other nodes alone. -/
theorem homes_step {ev : String × Command V} (h : ev.1 ≠ n) : (s.step ev).homes n = s.homes n := by
  obtain ⟨m, command⟩ := ev
  have hsave : ∀ (s' : Site V) (e : Engine V), s'.homes = s.homes →
      (s'.save m e).homes n = s.homes n := fun s' e hs' =>
    (Function.update_of_ne (Ne.symm h) _ _).trans (congrFun hs' n)
  unfold step run
  cases command with
  | init => exact hsave s _ rfl
  | status =>
    simp only [status]
    cases s.homes m with
    | none => rfl
    | some e => exact hsave s _ rfl
  | write w =>
    simp only [write]
    rcases w.data with - | data
    · rfl
    · rcases w.priority with - | priority <;> exact hsave s _ rfl
  | query collection limit => exact hsave s _ rfl
  | sync args =>
    simp only [sync]
    cases args.available with
    | false => exact hsave s _ rfl
    | true => exact hsave _ _ rfl

theorem queueStep (hkept : ∀ e, s.homes n = some e → Kept n e) (ev : String × Command V) :
    QueueStep n s (s.step ev) (queueEvent n s ev) := by
  obtain ⟨m, command⟩ := ev
  have h := opened hkept
  by_cases hm : m = n
  · subst hm
    cases command with
    | init => exact s.queueStep_init m hkept
    | status => exact h.queueStep_status hkept
    | write w =>
      have hevent : queueEvent m s (m, .write w) = (s.writes m w).map .push := if_pos rfl
      rw [hevent]
      exact h.queueStep_write hkept w
    | query collection limit => exact h.queueStep_open
    | sync args => exact h.queueStep_sync args
  · have hevent : queueEvent n s (m, command) = none := by
      cases command <;> simp [queueEvent, hm]
    rw [hevent]
    exact queueStep_other (homes_step hm) hkept

/-! ### Any commands -/

/-- The queue events of a run of commands. -/
def queueTrace (s : Site V) (n : String) (evs : List (String × Command V)) :
    List (QueueEvent (Operation V)) := (outputs step (queueEvent n) s evs).reduceOption

theorem queue_run (s : Site V) (n : String) (hkept : ∀ e, s.homes n = some e → Kept n e)
    (evs : List (String × Command V)) :
    (replay step s evs).waiting n =
        replay (QueueEvent.step OutboxQueue.SendsBefore) (s.waiting n) (s.queueTrace n evs) ∧
      ∀ e, (replay step s evs).homes n = some e → Kept n e := by
  induction evs generalizing s with
  | nil => exact ⟨rfl, hkept⟩
  | cons ev rest ih =>
    have hstep := queueStep hkept ev
    obtain ⟨hwaiting, hkept'⟩ := ih (s.step ev) hstep.kept
    refine ⟨hwaiting.trans ?_, hkept'⟩
    rw [hstep.waiting]
    unfold queueTrace
    rw [outputs]
    cases queueEvent n s ev <;> rfl

theorem foldl_update_map {κ β : Type*} [DecidableEq κ] (l : List κ) (f g : κ → β) (k : κ) :
    (l.map fun p => (p, f p)).foldl (fun c row => Function.update c row.1 row.2) g k =
      if k ∈ l then f k else g k := by
  induction l generalizing g with
  | nil => rfl
  | cons p rest ih =>
    rw [List.map_cons, List.foldl_cons, ih]
    by_cases hrest : k ∈ rest
    · rw [if_pos hrest, if_pos (List.mem_cons_of_mem p hrest)]
    · rw [if_neg hrest]
      by_cases hk : k = p
      · subst hk
        rw [if_pos List.mem_cons_self, Function.update_self]
      · rw [if_neg (by simp [hk, hrest]), Function.update_of_ne hk]

theorem sum_count_priorities (l : List Priority) : (Priority.all.map fun p => l.count p).sum = l.length := by
  induction l with
  | nil => rfl
  | cons p rest ih =>
    simp only [Priority.all, List.map_cons, List.map_nil, List.sum_cons, List.sum_nil] at ih ⊢
    simp only [List.count_cons, List.length_cons]
    cases p <;> simp <;> omega

/-- After any commands `dhava status` counts exactly what waits, in all and by priority, and the
priorities add up. -/
theorem status_counts_waiting (server : Server V) (n : String) (evs : List (String × Command V)) :
    let s := replay step (Site.init server) evs
    let priorities := (s.waiting n).map Operation.priority
    (s.homes n).isSome = true →
    ∃ st, (s.status n).2 = .status st ∧ st.pendingOps = (s.waiting n).length ∧
      (∀ p, st.pendingByPriority p = priorities.count p) ∧
      (Priority.all.map st.pendingByPriority).sum = st.pendingOps := by
  intro s priorities hopened
  obtain ⟨-, hkept⟩ := (Site.init server).queue_run n (fun e he => by cases he) evs
  have h : s.Opened n := opened hkept
  obtain ⟨home, hhome⟩ := Option.isSome_iff_exists.1 hopened
  have hstatus : (s.status n).2 = .status ((s.engine n).getStatus none) := by
    unfold status
    rw [hhome]
  -- the rows that are counted are those of the queue
  have hperm : (((s.engine n).outbox.rows.filter fun op => decide (op.syncState = .pending)).map
      Operation.priority).Perm priorities := by
    have hqueue : (s.engine n).outbox.queue.map Operation.asCreated = s.waiting n :=
      (OutboxQueue.map_asCreated_queue h.states).trans h.waiting
    have hpriorities : priorities = (s.engine n).outbox.queue.map Operation.priority := by
      change (s.waiting n).map Operation.priority = _
      rw [← hqueue, List.map_map]
      rfl
    rw [hpriorities, OutboxQueue.queue_eq]
    exact ((List.perm_insertionSort _ _).map Operation.priority).symm
  have hcount : ((s.engine n).getStatus none).pendingOps = (s.waiting n).length := by
    have hlength := hperm.length_eq
    rw [List.length_map, List.length_map] at hlength
    rw [← hlength]
    unfold Engine.getStatus OutboxQueue.pendingCount
    simp
  have hbreakdown : ∀ p, ((s.engine n).getStatus none).pendingByPriority p = priorities.count p := by
    intro p
    refine (foldl_update_map _ _ _ p).trans ?_
    rw [← hperm.count_eq p]
    split_ifs with hp
    · rfl
    · rw [List.mem_dedup] at hp
      exact (List.count_eq_zero.2 hp).symm
  refine ⟨_, hstatus, hcount, hbreakdown, ?_⟩
  rw [hcount, funext hbreakdown, sum_count_priorities, List.length_map]

/-- Two writes, and a sync that got no answer though the server handled one of its posts. -/
def unansweredSync : List (String × Command ℕ) :=
  let write (id : String) (priority : Priority) (now : ℚ) : String × Command ℕ :=
    ("node-01", .write
      { collection := "events", recordId := id, data := some ∅, priority := some priority
        opId := id, now, enqueuedAt := now, ends := fun _ => .committed })
  [ write "routine" .p2 1, write "urgent" .p0 2,
    ("node-01", .sync
      { available := true, stillAvailable := true, sessionId := "s", now := 3, faults := noFaults
        posts := [.unanswered none, .unanswered (some ⟨noFaults, 3⟩), .unanswered none] }) ]

theorem status_counts_waiting_example :
    let s := replay step (Site.init (Server.create "hq")) unansweredSync
    ∃ st, (s.status "node-01").2 = .status st ∧ st.pendingOps = 2 ∧
      st.pendingByPriority .p0 = 1 ∧ st.pendingByPriority .p4 = 0 := by
  intro s
  obtain ⟨st, hstatus, hpending, hbreakdown, -⟩ :=
    status_counts_waiting (Server.create "hq") "node-01" unansweredSync (by decide +kernel)
  refine ⟨st, hstatus, ?_, ?_, ?_⟩
  · rw [hpending]
    decide +kernel
  · rw [hbreakdown]
    decide +kernel
  · rw [hbreakdown]
    decide +kernel

end Site
end Dhava
