import Dhava.Foundations.StableQueue
import Dhava.Proofs.Bandwidth
import Dhava.Proofs.Provenance

/-! The outbox of a process is a priority queue. Whatever the priorities, the estimates and
the outcomes of the sessions, a session serves from the front of the queue and a local write
goes in behind what may be sent before it. -/

namespace Dhava

open Foundations

variable {V : Type}

namespace OutboxQueue

/-- What waits to be sent, in the order of sending. -/
def queue (q : OutboxQueue V) : List (Operation V) := q.getPending (-1)

theorem selects_all (op : Operation V) :
    selects none none none op = decide (op.syncState = .pending) := by
  simp [selects]

theorem queue_eq (q : OutboxQueue V) : q.queue =
    (q.rows.filter fun op => decide (op.syncState = .pending)).insertionSort SendsBefore := by
  unfold queue getPending limited
  rw [if_pos (by decide)]
  exact congrArg (List.insertionSort SendsBefore) (List.filter_congr fun op _ => selects_all op)

theorem nodup_queue (q : OutboxQueue V) : (q.queue.map Operation.opId).Nodup := by
  refine List.Nodup.map_on (fun a ha b hb hid => ?_) (q.nodup_getPending _ _ _ _)
  exact eq_of_opId (mem_getPending ha).1 (mem_getPending hb).1 hid

theorem queue_congr {q q' : OutboxQueue V} (h : q'.rows = q.rows) : q'.queue = q.queue := by
  rw [queue_eq, queue_eq, h]

/-- What a cutoff leaves of the queue. -/
def eligible (q : OutboxQueue V) (m : Priority) : List (Operation V) :=
  q.queue.filter fun op => op.priority.level ≤ m.level

theorem getPending_eq (q : OutboxQueue V) (n : ℤ) (m : Priority) :
    q.getPending n none (some m) = limited n (q.eligible m) := by
  unfold eligible getPending
  rw [queue_eq, filter_insertionSort, List.filter_filter]
  refine congrArg (fun l => limited n (List.insertionSort SendsBefore l)) (List.filter_congr ?_)
  intro op _
  rw [Bool.eq_iff_iff, Bool.and_eq_true, selects_cutoff, decide_eq_true_eq, decide_eq_true_eq]
  exact and_comm

/-- Whatever is sent before a row of the lower levels is itself of these levels. -/
theorem pairwise_queue (q : OutboxQueue V) (m : Priority) : q.queue.Pairwise fun a b =>
    decide (b.priority.level ≤ m.level) = true → decide (a.priority.level ≤ m.level) = true := by
  refine (q.pairwise_getPending _ _ _ _).imp fun {a b} hab hb => ?_
  rw [decide_eq_true_eq] at hb ⊢
  rcases hab with h | h
  · exact h.le.trans hb
  · exact h.1.le.trans hb

theorem eligible_initial (q : OutboxQueue V) (m : Priority) : q.eligible m <+: q.queue :=
  filter_initial (q.pairwise_queue m)

/-- What a limit lets through is in the first `m` or among what it lets through of the rest. -/
theorem length_limited_drop {α : Type} (n : ℤ) (l : List α) (m : ℕ) :
    (limited n l).length ≤ m + (limited n (l.drop m)).length := by
  rw [length_limited, length_limited, List.length_drop]
  split_ifs <;> omega

/-- One batch more, if the first `m` are one. -/
theorem length_limited_succ_mul {α : Type} {size : ℤ} {l : List α} {m : ℕ} (k : ℕ)
    (h : (limited size l).length ≤ m) :
    (limited ((k + 1) * size) l).length ≤ m + (limited (k * size) (l.drop m)).length := by
  rw [length_limited] at h ⊢
  rw [length_limited, List.length_drop]
  rcases lt_or_ge size 0 with hneg | hnonneg
  · rw [if_pos hneg] at h
    split_ifs <;> omega
  · have hk : 0 ≤ k * size := by positivity
    rw [if_neg hnonneg.not_gt] at h
    rw [if_neg hk.not_gt, if_neg (by linarith), add_mul, one_mul]
    omega

/-- A batch is a front part of the queue. -/
theorem getPending_initial_queue (q : OutboxQueue V) (n : ℤ) (m : Priority) :
    q.getPending n none (some m) <+: q.queue := by
  rw [getPending_eq]
  exact (limited_initial n _).trans (q.eligible_initial m)

theorem queue_enqueue {q q' : OutboxQueue V} {op : Operation V} (h : q'.rows = q.rows ++ [op])
    (hop : op.syncState = .pending) : q'.queue = insertBehind SendsBefore op q.queue := by
  rw [queue_eq, queue_eq, h, List.filter_append, List.filter_singleton, hop, decide_eq_true rfl,
    cond_true, insertionSort_concat]

/-- Rows that leave the state `pending` leave the queue. -/
theorem queue_setWhere (q : OutboxQueue V) (ids : List String) (f : Operation V → Operation V)
    (hf : ∀ op, (f op).opId = op.opId) (hleave : ∀ op, (f op).syncState ≠ .pending) :
    (q.setWhere ids f hf).queue = q.queue.filter fun op => !decide (op.opId ∈ ids) := by
  rw [queue_eq, queue_eq, rows_setWhere, filter_insertionSort]
  refine congrArg (List.insertionSort SendsBefore) ?_
  have hmap := filter_map_ite (p := fun op => decide (op.syncState = .pending))
    (c := fun op => decide (op.opId ∈ ids)) (f := f) q.rows
    fun op _ _ => decide_eq_false (hleave op)
  simpa using hmap

/-- Once a batch is marked, whatever the mark, the queue goes on behind it. -/
theorem queue_setWhere_batch (q : OutboxQueue V) {batch : List (Operation V)}
    (hbatch : batch <+: q.queue) (f : Operation V → Operation V)
    (hf : ∀ op, (f op).opId = op.opId) (hleave : ∀ op, (f op).syncState ≠ .pending) :
    (q.setWhere (batch.map Operation.opId) f hf).queue = q.queue.drop batch.length := by
  rw [queue_setWhere q _ f hf hleave, List.prefix_iff_eq_take.1 hbatch, List.length_take,
    min_eq_left hbatch.length_le]
  exact filter_not_mem_take q.nodup_queue _

end OutboxQueue

namespace World

/-- What node `n` sends in a step. -/
def transmits (w : World V) (n : String) : WorldEvent V → List (Operation V)
  | .sync m _ (some bandwidthBps) _ _ =>
    if m = n then (w.nodes n).engine.pendingBatch bandwidthBps else []
  | _ => []

/-- What a step is to the queue of node `n`: a call that is not refused pushes its operation,
a session with a link serves its batch. -/
def queueEvent (w : World V) (n : String) : WorldEvent V → Option (QueueEvent (Operation V))
  | .call m c =>
    if m = n then
      match ((w.nodes n).engine.call c).2 with
      | .ok (op, _) => some (.push op)
      | .error _ => none
    else none
  | .sync m _ (some bandwidthBps) _ _ =>
    if m = n then some (.pop ((w.nodes n).engine.pendingBatch bandwidthBps).length) else none
  | _ => none

def queue (w : World V) (n : String) : List (Operation V) := (w.nodes n).engine.outbox.queue

/-- A step of the program is a step of the queue. -/
structure QueueStep (w w' : World V) (n : String) (sent : List (Operation V))
    (ev : Option (QueueEvent (Operation V))) : Prop where
  queue : w'.queue n = ev.elim (w.queue n) (QueueEvent.step OutboxQueue.SendsBefore (w.queue n))
  sent : sent = ev.elim [] (QueueEvent.served (w.queue n))
  ops : (w'.nodes n).ops = (w.nodes n).ops ++ (ev.bind QueueEvent.pushed).toList

theorem queueStep_idle {w w' : World V} {n : String} (h : w'.nodes n = w.nodes n) :
    QueueStep w w' n [] none := by
  refine ⟨congrArg (fun node => node.engine.outbox.queue) h, rfl, ?_⟩
  rw [h]
  exact (List.append_nil _).symm

/-- The history and the outbox of a node follow the outcome of the call. -/
theorem call_outcome (node : Node V) (c : LocalCall V) :
    ((node.engine.call c).2 = .ok (node.issue c) ∧
        (node.call c).issued = node.issued ++ [node.issue c] ∧
        (node.call c).engine.outbox.rows =
          node.engine.outbox.rows ++ [node.engine.stamped c]) ∨
      ((∃ exc, (node.engine.call c).2 = .error exc) ∧ (node.call c).issued = node.issued ∧
        (node.call c).engine.outbox.rows = node.engine.outbox.rows) := by
  rw [Node.call_engine]
  unfold Node.call
  have h := node.engine.call_cases c
  generalize node.engine.call c = result at h ⊢
  rcases h with ⟨hok, hrows⟩ | ⟨⟨exc, herr⟩, hrows, -⟩
  · rcases result with ⟨e, outcome⟩
    obtain rfl : outcome = .ok (node.issue c) := hok
    exact Or.inl ⟨rfl, rfl, hrows⟩
  · rcases result with ⟨e, outcome⟩
    obtain rfl : outcome = .error exc := herr
    exact Or.inr ⟨⟨exc, rfl⟩, rfl, hrows⟩

theorem queueStep_call (w : World V) (n : String) (c : LocalCall V) :
    QueueStep w (w.step (.call n c)) n [] (w.queueEvent n (.call n c)) := by
  have hev : w.queueEvent n (.call n c) =
      match ((w.nodes n).engine.call c).2 with
      | .ok (op, _) => some (.push op)
      | .error _ => none := if_pos rfl
  have hself := w.call_self n c
  rcases call_outcome (w.nodes n) c with ⟨hok, hissued, hrows⟩ | ⟨⟨exc, herr⟩, hissued, hrows⟩
  · rw [hok] at hev
    rw [hev]
    refine ⟨?_, rfl, ?_⟩
    · unfold queue
      rw [hself]
      exact OutboxQueue.queue_enqueue hrows rfl
    · unfold Node.ops
      rw [hself, hissued, List.map_append]
      rfl
  · rw [herr] at hev
    rw [hev]
    refine ⟨?_, rfl, ?_⟩
    · unfold queue
      rw [hself]
      exact OutboxQueue.queue_congr hrows
    · unfold Node.ops
      rw [hself, hissued]
      exact (List.append_nil _).symm

theorem queueStep_sync (w : World V) (n sessionId : String) (bandwidthBps : ℤ) (now : ℚ)
    (serverNow : Readings) :
    QueueStep w (w.sync n sessionId (some bandwidthBps) now serverNow) n
      ((w.nodes n).engine.pendingBatch bandwidthBps)
      (some (.pop ((w.nodes n).engine.pendingBatch bandwidthBps).length)) := by
  have hbatch : (w.nodes n).engine.pendingBatch bandwidthBps <+: w.queue n :=
    OutboxQueue.getPending_initial_queue _ _ _
  refine ⟨?_, List.prefix_iff_eq_take.1 hbatch, ?_⟩
  · rcases w.sync_cases n sessionId bandwidthBps now serverNow with href | hsync
    · obtain ⟨error, hrows⟩ := href.rows
      exact (OutboxQueue.queue_congr hrows).trans
        (OutboxQueue.queue_setWhere_batch _ hbatch _ _ fun _ => SyncState.noConfusion)
    · exact (OutboxQueue.queue_congr hsync.rows).trans
        (OutboxQueue.queue_setWhere_batch _ hbatch _ _ fun _ => SyncState.noConfusion)
  · exact (ops_sync sessionId _ now serverNow n).trans (List.append_nil _).symm

theorem queueStep (w : World V) (n : String) (ev : WorldEvent V) :
    QueueStep w (w.step ev) n (w.transmits n ev) (w.queueEvent n ev) := by
  cases ev with
  | call m c =>
    by_cases hm : m = n
    · subst hm
      exact queueStep_call w m c
    · have hidle : w.queueEvent n (.call m c) = none := if_neg hm
      rw [hidle]
      exact queueStep_idle (w.call_of_ne (Ne.symm hm) c)
  | sync m sessionId link now serverNow =>
    by_cases hm : m = n
    · subst hm
      cases link with
      | none =>
        refine ⟨?_, rfl, ?_⟩
        · exact congrArg (fun node => node.engine.outbox.queue)
            (w.sync_none_self m sessionId now serverNow)
        · exact (ops_sync sessionId none now serverNow m).trans (List.append_nil _).symm
      | some bandwidthBps =>
        have hsent : w.transmits m (.sync m sessionId (some bandwidthBps) now serverNow) =
          (w.nodes m).engine.pendingBatch bandwidthBps := if_pos rfl
        have hev : w.queueEvent m (.sync m sessionId (some bandwidthBps) now serverNow) =
          some (.pop ((w.nodes m).engine.pendingBatch bandwidthBps).length) := if_pos rfl
        rw [hsent, hev]
        exact queueStep_sync w m sessionId bandwidthBps now serverNow
    · have hidle : w.queueEvent n (.sync m sessionId link now serverNow) = none ∧
          w.transmits n (.sync m sessionId link now serverNow) = [] := by
        cases link with
        | none => exact ⟨rfl, rfl⟩
        | some bandwidthBps => exact ⟨if_neg hm, if_neg hm⟩
      rw [hidle.1, hidle.2]
      exact queueStep_idle (w.sync_of_ne (Ne.symm hm) sessionId link now serverNow)
  | register now nodeId => exact queueStep_idle rfl

/-- What a run is to the queue of node `n`. -/
def queueTrace (w : World V) (n : String) (evs : List (WorldEvent V)) :
    List (QueueEvent (Operation V)) :=
  (outputs step (fun w ev => w.queueEvent n ev) w evs).reduceOption

/-- What node `n` sends in a run, session by session. -/
def sent (w : World V) (n : String) (evs : List (WorldEvent V)) : List (Operation V) :=
  (outputs step (fun w ev => w.transmits n ev) w evs).flatten

theorem queueTrace_cons (w : World V) (n : String) (ev : WorldEvent V) (rest : List (WorldEvent V)) :
    w.queueTrace n (ev :: rest) = (w.queueEvent n ev).toList ++ (w.step ev).queueTrace n rest := by
  unfold queueTrace
  rw [outputs]
  cases w.queueEvent n ev with
  | none => exact List.reduceOption_cons_of_none _
  | some a => exact List.reduceOption_cons_of_some _ _

theorem sent_cons (w : World V) (n : String) (ev : WorldEvent V) (rest : List (WorldEvent V)) :
    w.sent n (ev :: rest) = w.transmits n ev ++ (w.step ev).sent n rest := rfl

theorem queue_run (w : World V) (n : String) (evs : List (WorldEvent V)) :
    (replay step w evs).queue n =
        replay (QueueEvent.step OutboxQueue.SendsBefore) (w.queue n) (w.queueTrace n evs) ∧
      w.sent n evs = (outputs (QueueEvent.step OutboxQueue.SendsBefore) QueueEvent.served
        (w.queue n) (w.queueTrace n evs)).flatten ∧
      ((replay step w evs).nodes n).ops =
        (w.nodes n).ops ++ (w.queueTrace n evs).filterMap QueueEvent.pushed := by
  induction evs generalizing w with
  | nil => exact ⟨rfl, rfl, (List.append_nil _).symm⟩
  | cons ev rest ih =>
    have hstep := w.queueStep n ev
    obtain ⟨hqueue, hsent, hops⟩ := ih (w.step ev)
    rw [queueTrace_cons, sent_cons]
    rw [hstep.queue] at hqueue hsent
    rw [hstep.ops] at hops
    rw [hstep.sent, hsent]
    cases hev : w.queueEvent n ev with
    | none =>
      rw [hev] at hqueue hops
      rw [Option.bind_none, Option.toList_none, List.append_nil] at hops
      exact ⟨hqueue, rfl, hops⟩
    | some a =>
      rw [hev] at hqueue hops
      refine ⟨hqueue, rfl, hops.trans ?_⟩
      rw [List.append_assoc]
      cases a with
      | push op => rfl
      | pop k => rfl

/-- In every run the outbox of a node is a queue that serves by priority, then by time, and
what ties in the order of its arrival. What the node issued has been sent once or waits. -/
theorem outbox_refines_queue (serverNodeId : String) (resolver : ConflictResolver)
    (serverConfig : ServerConfig) (config : String → EngineConfig) (evs : List (WorldEvent V))
    (n : String) :
    let w := init serverNodeId resolver serverConfig config
    (replay step w evs).queue n =
        replay (QueueEvent.step OutboxQueue.SendsBefore) [] (w.queueTrace n evs) ∧
      w.sent n evs = (outputs (QueueEvent.step OutboxQueue.SendsBefore) QueueEvent.served
        [] (w.queueTrace n evs)).flatten ∧
      (w.sent n evs ++ (replay step w evs).queue n).Perm ((replay step w evs).nodes n).ops := by
  intro w
  obtain ⟨hqueue, hsent, hops⟩ := w.queue_run n evs
  refine ⟨hqueue, hsent, ?_⟩
  rw [hqueue, hsent, hops]
  exact QueueEvent.perm_served _ _ _

/-! ### Draining -/

theorem config_step (w : World V) (ev : WorldEvent V) (n : String) :
    ((w.step ev).nodes n).engine.config = (w.nodes n).engine.config := by
  rcases w.nodes_step ev n with h | ⟨nev, h, -⟩
  · rw [h]
  · rw [h]
    exact congrArg (fun i => i.2.1) ((w.nodes n).identity_step nev)

/-- No call of `n`, and no link of `n` with an estimate below `bandwidthBps`. -/
def Drains (n : String) (bandwidthBps : ℤ) : WorldEvent V → Prop
  | .call m _ => m ≠ n
  | .sync m _ (some bps) _ _ => m = n → bandwidthBps ≤ bps
  | _ => True

instance (n : String) (bandwidthBps : ℤ) :
    DecidablePred (Drains (V := V) n bandwidthBps)
  | .call m _ => inferInstanceAs (Decidable (m ≠ n))
  | .sync m _ (some bps) _ _ => inferInstanceAs (Decidable (m = n → bandwidthBps ≤ bps))
  | .sync _ _ none _ _ => inferInstanceAs (Decidable True)
  | .register .. => inferInstanceAs (Decidable True)

/-- The step is a session of `n` with a link. -/
def sends (n : String) : WorldEvent V → Bool
  | .sync m _ (some _) _ _ => m = n
  | _ => false

/-- What the queue holds for a link of this estimate. -/
def sendable (w : World V) (n : String) (bandwidthBps : ℤ) : List (Operation V) :=
  (w.nodes n).engine.outbox.eligible ((w.nodes n).engine.calculatePriorityCutoff bandwidthBps)

/-- At any estimate not below it a session serves as many. A negative batch size is no limit. -/
theorem length_pendingBatch_le (e : Engine V) {b b' : ℤ} (hb : b ≤ b') :
    (e.pendingBatch b).length ≤ (e.pendingBatch b').length := by
  have hcut := e.calculatePriorityCutoff_mono hb
  have hsize := e.calculateBatchSize_mono hb
  rcases lt_or_ge (e.calculateBatchSize b) 0 with hneg | hnonneg
  · have hneg' : e.calculateBatchSize b' < 0 := by
      unfold Engine.calculateBatchSize at hneg ⊢
      split_ifs at hneg ⊢ <;> omega
    unfold Engine.pendingBatch
    rw [OutboxQueue.getPending_eq, OutboxQueue.getPending_eq, OutboxQueue.limited, if_pos hneg,
      OutboxQueue.limited, if_pos hneg']
    refine (List.monotone_filter_right _ fun op hop => ?_).length_le
    rw [decide_eq_true_eq] at hop ⊢
    exact hop.trans hcut
  · exact (OutboxQueue.getPending_initial _ hcut hnonneg hsize).length_le

/-- What a step that drains leaves of the queue, and of its sendable part. -/
structure Drained (w w' : World V) (n : String) (bandwidthBps : ℤ) (batch : List (Operation V)) :
    Prop where
  queue : batch ++ w'.queue n = w.queue n
  sendable : w'.sendable n bandwidthBps = (w.sendable n bandwidthBps).drop batch.length

theorem drained_step (w : World V) {n : String} {bandwidthBps : ℤ} {ev : WorldEvent V}
    (hev : Drains n bandwidthBps ev) :
    Drained w (w.step ev) n bandwidthBps (w.transmits n ev) := by
  have hstep := w.queueStep n ev
  have hqueue : w.transmits n ev ++ (w.step ev).queue n = w.queue n := by
    rw [hstep.queue, hstep.sent]
    cases ev with
    | call m c =>
      have hnone : w.queueEvent n (.call m c) = none := if_neg hev
      rw [hnone]
      rfl
    | sync m sessionId link now serverNow =>
      cases link with
      | none => rfl
      | some bps =>
        by_cases hm : m = n
        · have hpop : w.queueEvent n (.sync m sessionId (some bps) now serverNow) =
            some (.pop ((w.nodes n).engine.pendingBatch bps).length) := if_pos hm
          rw [hpop]
          exact List.take_append_drop _ _
        · have hnone : w.queueEvent n (.sync m sessionId (some bps) now serverNow) = none := if_neg hm
          rw [hnone]
          rfl
    | register now nodeId => rfl
  refine ⟨hqueue, ?_⟩
  have hrest : (w.step ev).queue n = (w.queue n).drop (w.transmits n ev).length := by
    rw [← hqueue, List.drop_left]
  have hcut : ((w.step ev).nodes n).engine.calculatePriorityCutoff bandwidthBps =
      (w.nodes n).engine.calculatePriorityCutoff bandwidthBps := by
    unfold Engine.calculatePriorityCutoff
    rw [w.config_step]
  unfold sendable OutboxQueue.eligible
  rw [hcut]
  change List.filter _ ((w.step ev).queue n) = _
  rw [hrest]
  exact filter_drop_of_initial ((w.nodes n).engine.outbox.pairwise_queue _) _

/-- A session that drains serves a batch of the sendable part. -/
theorem length_transmits (w : World V) {n : String} {bandwidthBps : ℤ} {ev : WorldEvent V}
    (hev : Drains n bandwidthBps ev) (hsends : sends n ev = true) :
    (OutboxQueue.limited ((w.nodes n).engine.calculateBatchSize bandwidthBps)
      (w.sendable n bandwidthBps)).length ≤ (w.transmits n ev).length := by
  cases ev with
  | call m c => cases hsends
  | register now nodeId => cases hsends
  | sync m sessionId link now serverNow =>
    cases link with
    | none => cases hsends
    | some bps =>
      have hm : m = n := of_decide_eq_true hsends
      have hbatch : w.transmits n (.sync m sessionId (some bps) now serverNow) =
        (w.nodes n).engine.pendingBatch bps := if_pos hm
      rw [hbatch, sendable, ← OutboxQueue.getPending_eq]
      exact length_pendingBatch_le _ (hev hm)

/-- While a node issues nothing its queue is served from the front, and the first `k`
sessions send at least `k` batches of what the slowest link takes. -/
theorem drains_in_order (w : World V) (n : String) (bandwidthBps : ℤ) (evs : List (WorldEvent V))
    (hevs : ∀ ev ∈ evs, Drains n bandwidthBps ev) :
    w.sent n evs ++ (replay step w evs).queue n = w.queue n ∧
      OutboxQueue.limited
        (evs.countP (sends n) * (w.nodes n).engine.calculateBatchSize bandwidthBps)
        (w.sendable n bandwidthBps) <+: w.sent n evs := by
  induction evs generalizing w with
  | nil => exact ⟨rfl, by simp [OutboxQueue.limited]⟩
  | cons ev rest ih =>
    obtain ⟨hev, hrest⟩ := List.forall_mem_cons.1 hevs
    have hstep := w.drained_step hev
    obtain ⟨hqueue, hprefix⟩ := ih (w.step ev) hrest
    have hsize : ((w.step ev).nodes n).engine.calculateBatchSize bandwidthBps =
        (w.nodes n).engine.calculateBatchSize bandwidthBps := by
      unfold Engine.calculateBatchSize
      rw [w.config_step]
    rw [hsize, hstep.sendable] at hprefix
    have hall : w.sent n (ev :: rest) ++ (replay step (w.step ev) rest).queue n = w.queue n := by
      rw [sent_cons, List.append_assoc, hqueue, hstep.queue]
    refine ⟨hall, ?_⟩
    -- both are front parts of the queue, so it is a matter of their lengths
    refine List.prefix_of_prefix_length_le
      ((OutboxQueue.limited_initial _ _).trans (OutboxQueue.eligible_initial _ _)) ⟨_, hall⟩ ?_
    rw [sent_cons, List.length_append]
    refine le_trans ?_ (Nat.add_le_add_left hprefix.length_le _)
    cases hsends : sends n ev with
    | false =>
      rw [List.countP_cons_of_neg (by simp [hsends])]
      exact OutboxQueue.length_limited_drop _ _ _
    | true =>
      rw [List.countP_cons_of_pos hsends, Nat.cast_succ]
      exact OutboxQueue.length_limited_succ_mul _ (w.length_transmits hev hsends)

/-- Node `a` with an urgent write behind a routine one. -/
def twoWaiting : World ℕ :=
  replay step (init "hq" { nodeId := "hq" } {} fun _ => {})
    [sampleWrite .create "title" .p2 "1" 0, sampleWrite .merge "note" .p0 "2" 1]

theorem drains_in_order_example :
    let evs : List (WorldEvent ℕ) :=
      [.sync "a" "s" (some 9600) 2 2, .sync "b" "t" none 3 3, .sync "a" "u" (some 16000) 4 4]
    twoWaiting.sent "a" evs ++ (replay step twoWaiting evs).queue "a" = twoWaiting.queue "a" ∧
      OutboxQueue.limited
        (evs.countP (sends "a") * (twoWaiting.nodes "a").engine.calculateBatchSize 9600)
        (twoWaiting.sendable "a" 9600) <+: twoWaiting.sent "a" evs :=
  drains_in_order twoWaiting "a" 9600 _ (by decide +kernel)

end World
end Dhava
