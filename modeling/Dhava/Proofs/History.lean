import Dhava.Foundations.Run
import Dhava.Proofs.Session

/-! The history of a node beside its engine: every outbox row is an operation that was
issued, every stored row shows a clock that was issued here or pulled, and an own clock
shows no count of another node that was not pulled on the same record. -/

namespace Dhava

open Foundations

variable {V : Type}

namespace Node

/-- The operation a call creates, with the record the call returns. -/
def issue (node : Node V) (c : LocalCall V) : Operation V × Record V :=
  (node.engine.stamped c,
    LocalStore.written (node.engine.localStore.get c.key true) (node.engine.stamped c))

@[simp] theorem call_engine (node : Node V) (c : LocalCall V) :
    (node.call c).engine = (node.engine.call c).1 := by
  unfold call
  rcases node.engine.call c with ⟨e, exc | issued⟩ <;> rfl

@[simp] theorem call_acked (node : Node V) (c : LocalCall V) : (node.call c).acked = node.acked := by
  unfold call
  rcases node.engine.call c with ⟨e, exc | issued⟩ <;> rfl

@[simp] theorem call_processed (node : Node V) (c : LocalCall V) :
    (node.call c).processed = node.processed := by
  unfold call
  rcases node.engine.call c with ⟨e, exc | issued⟩ <;> rfl

/-- A call extends the history and the outbox by the same operation, or raises because its
id is taken and extends neither. -/
theorem call_cases (node : Node V) (c : LocalCall V) :
    ((node.call c).issued = node.issued ++ [node.issue c] ∧
        (node.call c).engine.outbox.rows = node.engine.outbox.rows ++ [node.engine.stamped c]) ∨
      ((node.call c).issued = node.issued ∧
        (node.call c).engine.outbox.rows = node.engine.outbox.rows ∧
        ∃ r ∈ node.engine.outbox.rows, r.opId = c.opId) := by
  rw [call_engine]
  unfold call
  have h := node.engine.call_cases c
  generalize node.engine.call c = result at h ⊢
  rcases result with ⟨e, exc | issued⟩
  · rcases h with ⟨hok, -⟩ | ⟨-, hrows, htaken⟩
    · cases hok
    · exact Or.inr ⟨rfl, hrows, htaken⟩
  · rcases h with ⟨hok, hrows⟩ | ⟨⟨exc, herr⟩, -⟩
    · obtain rfl := Except.ok.inj hok
      exact Or.inl ⟨rfl, hrows⟩
    · cases herr

theorem acked_sync_of_accepted (node : Node V) (sessionId : String) (bandwidthBps : ℤ) (now : ℚ)
    (faults : ℕ → Option Fault) {x : Exchange V} {resp : SyncPullResponse V}
    (hx : x.accepted = some resp) :
    (node.sync sessionId (some bandwidthBps) now faults x).acked = node.acked ++ resp.ackedOpIds := by
  unfold sync
  simp only [hx]

theorem acked_sync_of_none (node : Node V) (sessionId : String) (link : Option ℤ) (now : ℚ)
    (faults : ℕ → Option Fault) {x : Exchange V} (hx : x.accepted = none) :
    (node.sync sessionId link now faults x).acked = node.acked := by
  unfold sync
  cases link <;> simp [hx]

theorem issued_subset_step (node : Node V) (ev : NodeEvent V) :
    node.issued ⊆ (node.step ev).issued := by
  cases ev with
  | call c =>
    rcases node.call_cases c with ⟨h, -⟩ | ⟨h, -⟩
    · intro p hp
      change p ∈ (node.call c).issued
      rw [h]
      exact List.mem_append_left _ hp
    · exact h.symm ▸ List.Subset.refl _
  | sync sessionId link now faults x => exact List.Subset.refl _

theorem mem_ops {node : Node V} {op : Operation V} :
    op ∈ node.ops ↔ ∃ rec, (op, rec) ∈ node.issued := by
  simp [ops]

/-- Every outbox row is an issued operation, as created but for the sync columns. -/
def RowsIssued (node : Node V) : Prop :=
  ∀ r ∈ node.engine.outbox.rows, r.asCreated ∈ node.ops

theorem rowsIssued_create (nodeId : String) (config : EngineConfig) :
    (create nodeId config : Node V).RowsIssued := by
  intro r hr
  simp [create, Engine.create, Engine.boot, OutboxQueue.rows, OutboxQueue.resetInFlight,
    OutboxQueue.empty, Keyed.update, Keyed.empty] at hr

theorem rowsIssued_step {node : Node V} (h : node.RowsIssued) (ev : NodeEvent V) :
    (node.step ev).RowsIssued := by
  have hsub : ∀ {op}, op ∈ node.ops → op ∈ (node.step ev).ops :=
    fun hop => List.map_subset _ (node.issued_subset_step ev) hop
  intro r hr
  cases ev with
  | call c =>
    rcases node.call_cases c with ⟨hi, hrows⟩ | ⟨-, hrows, -⟩
    · change r ∈ (node.call c).engine.outbox.rows at hr
      rw [hrows, List.mem_append, List.mem_singleton] at hr
      rcases hr with hr | rfl
      · exact hsub (h r hr)
      · change _ ∈ (node.call c).issued.map Prod.fst
        rw [hi]
        simp [issue]
    · change r ∈ (node.call c).engine.outbox.rows at hr
      rw [hrows] at hr
      exact hsub (h r hr)
  | sync sessionId link now faults x =>
    -- every exit keeps the rows but for the sync columns
    obtain ⟨r₀, h₀, he⟩ : ∃ r₀ ∈ node.engine.outbox.rows, r.asCreated = r₀.asCreated := by
      change r ∈ (node.engine.syncNow sessionId link now faults fun _ => x).1.outbox.rows at hr
      rcases node.engine.rows_syncNow sessionId link now faults x with
        ⟨_, _, -, -, hrows⟩ | ⟨_, _, -, -, hrows⟩ | ⟨-, hrows⟩
      · rw [hrows] at hr
        obtain ⟨r₀, h₀, rfl⟩ := OutboxQueue.mem_markFailed.1 hr
        exact ⟨r₀, h₀, by split_ifs <;> rfl⟩
      · rw [hrows] at hr
        obtain ⟨r₀, h₀, rfl⟩ := OutboxQueue.mem_markSynced.1 hr
        exact ⟨r₀, h₀, by split_ifs <;> rfl⟩
      · rw [hrows] at hr
        exact ⟨r, hr, rfl⟩
    rw [he]
    exact h r₀ h₀

/-- The id a call draws is not that of an earlier operation. -/
def Fresh (node : Node V) : NodeEvent V → Prop
  | .call c => ∀ op ∈ node.ops, op.opId ≠ c.opId
  | .sync .. => True

instance (node : Node V) : (ev : NodeEvent V) → Decidable (node.Fresh ev)
  | .call c => inferInstanceAs (Decidable (∀ op ∈ node.ops, op.opId ≠ c.opId))
  | .sync .. => inferInstanceAs (Decidable True)

/-- With a new id a call does not raise. -/
theorem call_fresh {node : Node V} (hrows : node.RowsIssued) {c : LocalCall V}
    (hc : node.Fresh (.call c)) :
    (node.call c).issued = node.issued ++ [node.issue c] ∧
      (node.call c).engine.outbox.rows = node.engine.outbox.rows ++ [node.engine.stamped c] := by
  rcases node.call_cases c with h | ⟨-, -, r, hr, hid⟩
  · exact h
  · exact absurd hid (hc r.asCreated (hrows r hr))

theorem identity_step (node : Node V) (ev : NodeEvent V) :
    (node.step ev).engine.identity = node.engine.identity := by
  cases ev with
  | call c =>
    change (node.call c).engine.identity = _
    rw [call_engine]
    exact (node.engine.call_wrote c).identity
  | sync sessionId link now faults x =>
    exact (node.engine.syncNow_synced sessionId link now faults x).identity

/-! ### Where clocks come from -/

/-- The operations a node has had in hand: its own and the pulled ones. -/
def seen (node : Node V) : List (Operation V) := node.ops ++ node.processed

/-- The clocks in a node's store and on its own operations are accounted for by what the
node has seen on the same record. -/
structure Traced (node : Node V) : Prop where
  rows : node.RowsIssued
  own : ∀ op ∈ node.ops, op.nodeId = node.engine.nodeId ∧ op.asCreated = op
  returned : ∀ p ∈ node.issued, ∃ existing, p.2 = LocalStore.written existing p.1
  positive : ∀ op ∈ node.ops, 0 < (VectorClock.ofDict op.vectorClock).get node.engine.nodeId
  stored : ∀ key r, node.engine.localStore.get key true = some r →
    ∃ op ∈ node.seen, op.key = key ∧ op.vectorClock = r.vectorClock
  shown : ∀ op ∈ node.ops, ∀ m, m ≠ node.engine.nodeId →
    0 < (VectorClock.ofDict op.vectorClock).get m →
    ∃ p ∈ node.processed, p.key = op.key ∧
      (VectorClock.ofDict op.vectorClock).get m ≤ (VectorClock.ofDict p.vectorClock).get m

theorem traced_create (nodeId : String) (config : EngineConfig) :
    (create nodeId config : Node V).Traced where
  rows := rowsIssued_create nodeId config
  own := by intro op hop; simp [create, ops] at hop
  returned := by intro p hp; simp [create] at hp
  positive := by intro op hop; simp [create, ops] at hop
  stored := by
    intro key r hr
    have hnone : (create nodeId config : Node V).engine.localStore.get key true = none := rfl
    rw [hnone] at hr
    cases hr
  shown := by intro op hop; simp [create, ops] at hop

/-- A count of another node on top of which a node writes has been pulled on that record. -/
theorem Traced.shown_stamped {node : Node V} (h : node.Traced) (c : LocalCall V) {m : String}
    (hm : m ≠ node.engine.nodeId)
    (hpos : 0 < (VectorClock.ofDict (node.engine.stamped c).vectorClock).get m) :
    ∃ p ∈ node.processed, p.key = c.key ∧
      (VectorClock.ofDict (node.engine.stamped c).vectorClock).get m ≤
        (VectorClock.ofDict p.vectorClock).get m := by
  rw [Engine.get_stamped_clock, bump_of_ne hm] at hpos ⊢
  rcases node.engine.storedClock_cases c.key with ⟨-, hnone⟩ | ⟨r, hr, hclock⟩
  · rw [hnone, VectorClock.get_empty] at hpos
    exact absurd hpos (lt_irrefl _)
  · obtain ⟨op, hop, hkey, hvc⟩ := h.stored c.key r hr
    rw [hclock, ← hvc] at hpos ⊢
    rcases List.mem_append.1 hop with hown | hpulled
    · obtain ⟨p, hp, hpk, hle⟩ := h.shown op hown m hm hpos
      exact ⟨p, hp, hpk.trans hkey, hle⟩
    · exact ⟨op, hpulled, hkey, le_rfl⟩

theorem traced_call {node : Node V} (h : node.Traced) {c : LocalCall V}
    (hc : node.Fresh (.call c)) : (node.call c).Traced := by
  have hid : (node.call c).engine.nodeId = node.engine.nodeId :=
    Engine.nodeId_of_identity (node.identity_step (.call c))
  have hops : (node.call c).ops = node.ops ++ [node.engine.stamped c] := by
    rw [ops, (call_fresh h.rows hc).1, List.map_append]
    rfl
  refine ⟨rowsIssued_step h.rows (.call c), ?_, ?_, ?_, ?_, ?_⟩
  · intro op hop
    rw [hops, List.mem_append, List.mem_singleton] at hop
    rw [hid]
    rcases hop with hop | rfl
    · exact h.own op hop
    · exact ⟨rfl, rfl⟩
  · intro p hp
    rw [(call_fresh h.rows hc).1, List.mem_append, List.mem_singleton] at hp
    rcases hp with hp | rfl
    · exact h.returned p hp
    · exact ⟨_, rfl⟩
  · intro op hop
    rw [hops, List.mem_append, List.mem_singleton] at hop
    rw [hid]
    rcases hop with hop | rfl
    · exact h.positive op hop
    · have hstored := (node.engine.storedClock c.key).get_nonneg node.engine.nodeId
      rw [Engine.get_stamped_clock, bump_self]
      omega
  · intro key r hr
    rw [call_engine, (node.engine.call_wrote c).get] at hr
    unfold seen
    rw [hops, call_processed]
    split_ifs at hr with hk
    · obtain rfl := Option.some.inj hr
      exact ⟨node.engine.stamped c, by simp, hk.symm, rfl⟩
    · obtain ⟨op, hop, hkey, hvc⟩ := h.stored key r hr
      refine ⟨op, ?_, hkey, hvc⟩
      rcases List.mem_append.1 hop with hop | hop <;> simp [hop]
  · intro op hop m hm hpos
    rw [hid] at hm
    rw [call_processed]
    rw [hops, List.mem_append, List.mem_singleton] at hop
    rcases hop with hop | rfl
    · exact h.shown op hop m hm hpos
    · exact h.shown_stamped c hm hpos

theorem traced_sync {node : Node V} (h : node.Traced) (sessionId : String) (link : Option ℤ)
    (now : ℚ) (faults : ℕ → Option Fault) (x : Exchange V) :
    (node.sync sessionId link now faults x).Traced := by
  have hsynced := node.engine.syncNow_synced sessionId link now faults x
  have hid := Engine.nodeId_of_identity hsynced.identity
  refine ⟨rowsIssued_step h.rows (.sync sessionId link now faults x), ?_, h.returned, ?_, ?_, ?_⟩
  · intro op hop
    obtain ⟨hn, hc⟩ := h.own op hop
    exact ⟨hn.trans hid.symm, hc⟩
  · intro op hop
    exact hid.symm ▸ h.positive op hop
  · intro key r hr
    replace hr : (node.engine.syncNow sessionId link now faults fun _ => x).1.localStore.get key true =
      some r := hr
    rw [hsynced.localStore] at hr
    -- every row is an old one or was written by a processed operation
    have hinv := node.engine.pulled_invariant sessionId link now faults x
      (P := fun s done => ∀ key r, s.get key true = some r →
        ∃ op ∈ node.ops ++ (node.processed ++ done), op.key = key ∧ op.vectorClock = r.vectorClock)
      (fun s done op hs key r hr => ?_) (fun s done op hs key r hr => ?_) (fun key r hr => ?_)
    · exact hinv key r hr
    · obtain ⟨o, ho, hk⟩ := hs key r hr
      refine ⟨o, ?_, hk⟩
      rw [← List.append_assoc, ← List.append_assoc] at *
      exact List.mem_append_left _ ho
    · rcases ConflictResolver.get_foldl_process_cases node.engine.conflictResolver [op] s hr with
        hold | ⟨o, ho, hk, _, rfl⟩
      · obtain ⟨o, ho, hk⟩ := hs key r hold
        refine ⟨o, ?_, hk⟩
        rw [← List.append_assoc, ← List.append_assoc] at *
        exact List.mem_append_left _ ho
      · obtain rfl := List.mem_singleton.1 ho
        exact ⟨o, by simp, hk, rfl⟩
    · rw [List.append_nil]
      exact h.stored key r hr
  · intro op hop m hm hpos
    obtain ⟨p, hp, hpk, hle⟩ := h.shown op hop m (fun he => hm (he.trans hid.symm)) hpos
    exact ⟨p, List.mem_append_left _ hp, hpk, hle⟩

theorem traced_step {node : Node V} (h : node.Traced) (ev : NodeEvent V) (hev : node.Fresh ev) :
    (node.step ev).Traced := by
  cases ev with
  | call c => exact traced_call h hev
  | sync sessionId link now faults x => exact traced_sync h sessionId link now faults x

end Node
end Dhava
