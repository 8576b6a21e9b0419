import Dhava.Proofs.Exchange
import Dhava.Proofs.PullDelta

/-! Where the clocks of a whole system come from. Every clock in a store or in a pulled
operation was issued by some node on the same record, and every count it shows of a node
was issued by that node on that record, below it. -/

namespace Dhava

open Foundations

variable {V : Type}

theorem Server.mem_getOperationsForPeer {srv : Server V} {now : ℚ} {peerVc : VectorClock}
    {peerNodeId : String} {op : Operation V}
    (h : op ∈ srv.getOperationsForPeer now peerVc peerNodeId) :
    ∃ r, srv.localStore.get op.key true = some r ∧ newForPeer peerVc peerNodeId r = true ∧
      op = snapshotOp now r := by
  rw [getOperationsForPeer_eq, List.mem_map] at h
  obtain ⟨r, hr, rfl⟩ := h
  obtain ⟨hnew, -, hrow⟩ := (srv.mem_deltaRows _ _ _).1 hr
  have hmem := ((LocalStore.mem_rowsOf _ _ _).1 (List.mem_of_mem_take hrow)).1
  exact ⟨r, (LocalStore.mem_rows_iff _ _).1 hmem, hnew, rfl⟩

namespace World

/-- The stamps on a record: who issued which counts. -/
def stamps (w : World V) (key : Key) : Set (String × (String → ℤ)) :=
  {s | ∃ op ∈ (w.nodes s.1).ops, op.key = key ∧ (VectorClock.ofDict op.vectorClock).get = s.2}

theorem mem_stamps {w : World V} {key : Key} {m : String} {s : String → ℤ} :
    (m, s) ∈ w.stamps key ↔ ∃ op ∈ (w.nodes m).ops, op.key = key ∧
      (VectorClock.ofDict op.vectorClock).get = s := Iff.rfl

structure Provenance (w : World V) : Prop where
  nodeId : ∀ n, (w.nodes n).engine.nodeId = n
  traced : ∀ n, (w.nodes n).Traced
  server : ∀ key r, w.server.localStore.get key true = some r →
    ∃ op ∈ (w.nodes r.lastModifiedBy).ops, op.key = key ∧ op.vectorClock = r.vectorClock
  processed : ∀ n, ∀ p ∈ (w.nodes n).processed,
    ∃ m, ∃ op ∈ (w.nodes m).ops, op.key = p.key ∧ op.vectorClock = p.vectorClock
  attested : ∀ key, Attested (w.stamps key)

theorem provenance_init (serverNodeId : String) (resolver : ConflictResolver)
    (serverConfig : ServerConfig) (config : String → EngineConfig) :
    (init serverNodeId resolver serverConfig config : World V).Provenance where
  nodeId := fun _ => rfl
  traced := fun n => Node.traced_create n (config n)
  server := by intro key r hr; cases hr
  processed := by intro n p hp; cases hp
  attested := by
    intro key m c hmem
    obtain ⟨op, hop, -⟩ := hmem
    cases hop

/-- A clock a node has seen on a record was stamped on it by somebody. -/
theorem Provenance.stamp_of_seen {w : World V} (h : w.Provenance) {n : String} {op : Operation V}
    (hop : op ∈ (w.nodes n).seen) :
    ∃ m, (m, (VectorClock.ofDict op.vectorClock).get) ∈ w.stamps op.key := by
  rcases List.mem_append.1 hop with hown | hpulled
  · exact ⟨n, op, hown, rfl, rfl⟩
  · obtain ⟨m, o, ho, hkey, hvc⟩ := h.processed n op hpulled
    exact ⟨m, o, ho, hkey, by rw [hvc]⟩

section Call

variable {w : World V} {n : String} {c : LocalCall V}

theorem ops_call (hrows : (w.nodes n).RowsIssued) (hc : w.Fresh (.call n c)) (m : String) :
    ((w.step (.call n c)).nodes m).ops =
      (w.nodes m).ops ++ if m = n then [(w.nodes n).engine.stamped c] else [] := by
  rw [Node.ops, issued_call hrows hc, List.map_append]
  split_ifs <;> rfl

theorem mem_ops_call (hrows : (w.nodes n).RowsIssued) (hc : w.Fresh (.call n c)) {m : String}
    {op : Operation V} (h : op ∈ (w.nodes m).ops) : op ∈ ((w.step (.call n c)).nodes m).ops := by
  rw [ops_call hrows hc]
  exact List.mem_append_left _ h

/-- The call adds its own stamp on its record. -/
theorem stamps_call (hrows : (w.nodes n).RowsIssued) (hc : w.Fresh (.call n c)) (key : Key) :
    (w.step (.call n c)).stamps key = if key = c.key then
      insert (n, (VectorClock.ofDict ((w.nodes n).engine.stamped c).vectorClock).get) (w.stamps key)
      else w.stamps key := by
  ext ⟨m, s⟩
  have hmem : (m, s) ∈ (w.step (.call n c)).stamps key ↔ (m, s) ∈ w.stamps key ∨
      (m = n ∧ c.key = key ∧
        (VectorClock.ofDict ((w.nodes n).engine.stamped c).vectorClock).get = s) := by
    simp only [mem_stamps, ops_call hrows hc, List.mem_append]
    constructor
    · intro hmem
      obtain ⟨op, hop | hop, hk, hs⟩ := hmem
      · exact Or.inl ⟨op, hop, hk, hs⟩
      · split_ifs at hop with hm
        · obtain rfl := List.mem_singleton.1 hop
          exact Or.inr ⟨hm, hk, hs⟩
        · cases hop
    · intro hmem
      rcases hmem with ⟨op, hop, hk, hs⟩ | ⟨hm, hk, hs⟩
      · exact ⟨op, Or.inl hop, hk, hs⟩
      · refine ⟨(w.nodes n).engine.stamped c, Or.inr ?_, hk, hs⟩
        rw [if_pos hm]
        exact List.mem_singleton_self _
  rw [hmem]
  split_ifs with hkey
  · subst hkey
    rw [Set.mem_insert_iff]
    constructor
    · intro hmem
      rcases hmem with h | ⟨rfl, -, rfl⟩
      · exact Or.inr h
      · exact Or.inl rfl
    · intro hmem
      rcases hmem with h | h
      · obtain ⟨rfl, rfl⟩ := Prod.mk.inj h
        exact Or.inr ⟨rfl, rfl, rfl⟩
      · exact Or.inl h
  · exact or_iff_left fun h => hkey h.2.1.symm

theorem provenance_call (h : w.Provenance) (hc : w.Fresh (.call n c)) :
    (w.step (.call n c)).Provenance := by
  have hrows := (h.traced n).rows
  refine ⟨?_, ?_, ?_, ?_, ?_⟩
  · intro m
    rcases w.nodes_step (.call n c) m with he | ⟨nev, he, -⟩
    · rw [he]
      exact h.nodeId m
    · rw [he, Engine.nodeId_of_identity ((w.nodes m).identity_step nev)]
      exact h.nodeId m
  · intro m
    rcases w.nodes_step (.call n c) m with he | ⟨nev, he, hfresh⟩
    · rw [he]
      exact h.traced m
    · rw [he]
      exact Node.traced_step (h.traced m) nev (hfresh hc)
  · intro key r hr
    obtain ⟨op, hop, hk⟩ := h.server key r hr
    exact ⟨op, mem_ops_call hrows hc hop, hk⟩
  · intro m p hp
    have hsame : ((w.step (.call n c)).nodes m).processed = (w.nodes m).processed := by
      by_cases hm : m = n
      · subst hm
        rw [w.call_self, Node.call_processed]
      · rw [w.call_of_ne hm]
    rw [hsame] at hp
    obtain ⟨m', op, hop, hk⟩ := h.processed m p hp
    exact ⟨m', op, mem_ops_call hrows hc hop, hk⟩
  · intro key
    rw [stamps_call hrows hc]
    split_ifs with hkey
    · rw [Engine.get_stamped_clock, h.nodeId n]
      refine (h.attested key).stamp n ?_
      -- the stamp goes on top of nothing or of a clock seen on the record
      rcases (w.nodes n).engine.storedClock_cases c.key with ⟨-, hnone⟩ | ⟨r, hr, hclock⟩
      · exact Or.inl (by rw [hnone, VectorClock.get_empty])
      · obtain ⟨op, hop, hk, hvc⟩ := (h.traced n).stored c.key r hr
        obtain ⟨m, hm⟩ := h.stamp_of_seen hop
        rw [hk, hvc, ← hkey] at hm
        exact Or.inr ⟨m, hclock ▸ hm⟩
    · exact h.attested key

end Call

section Sync

variable {w : World V} {n : String}

theorem ops_sync (sessionId : String) (link : Option ℤ) (now : ℚ) (serverNow : Readings) (m : String) :
    ((w.sync n sessionId link now serverNow).nodes m).ops = (w.nodes m).ops :=
  congrArg (List.map Prod.fst) (w.issued_sync n sessionId link now serverNow m)

/-- An operation of a batch is an operation the node issued, as to key, clock and author. -/
theorem Provenance.batch (h : w.Provenance) {bandwidthBps : ℤ} {op : Operation V}
    (hop : op ∈ (w.nodes n).engine.pendingBatch bandwidthBps) :
    op.asCreated ∈ (w.nodes n).ops ∧ op.nodeId = n := by
  have hmem := (h.traced n).rows op (OutboxQueue.mem_getPending hop).1
  exact ⟨hmem, ((h.traced n).own _ hmem).1.trans (h.nodeId n)⟩

/-- The server's rows after an exchange come from issued operations. -/
theorem Provenance.server_sync (h : w.Provenance) (sessionId : String) (bandwidthBps : ℤ)
    (now : ℚ) (serverNow : Readings) {key : Key} {r : Record V}
    (hr : (w.sync n sessionId (some bandwidthBps) now serverNow).server.localStore.get key true =
      some r) :
    ∃ op ∈ (w.nodes r.lastModifiedBy).ops, op.key = key ∧ op.vectorClock = r.vectorClock := by
  rcases w.sync_cases n sessionId bandwidthBps now serverNow with href | hsync
  · rw [href.server] at hr
    exact h.server key r hr
  · rw [hsync.server] at hr
    rcases ConflictResolver.get_foldl_process_cases _ _ _ hr with hold | ⟨op, hop, hk, _, rfl⟩
    · exact h.server key r hold
    · obtain ⟨hmem, hn⟩ := h.batch hop
      refine ⟨op.asCreated, ?_, hk, rfl⟩
      rw [LocalStore.lastModifiedBy_written, hn]
      exact hmem

/-- What a sync processes shows the clock of a row of the server, so of an issued operation. -/
theorem Provenance.processed_sync (h : w.Provenance) (sessionId : String) (link : Option ℤ)
    (now : ℚ) (serverNow : Readings) {m : String} {p : Operation V}
    (hp : p ∈ ((w.sync n sessionId link now serverNow).nodes m).processed) :
    ∃ m', ∃ op ∈ (w.nodes m').ops, op.key = p.key ∧ op.vectorClock = p.vectorClock := by
  by_cases hm : m = n
  · subst hm
    cases link with
    | none =>
      rw [w.sync_none_self] at hp
      apply h.processed m p
      simpa [Node.sync, Engine.pulled] using hp
    | some bandwidthBps =>
      rcases w.sync_cases m sessionId bandwidthBps now serverNow with href | hsync
      · rw [href.processed] at hp
        exact h.processed m p hp
      · rw [hsync.processed, List.mem_append] at hp
        rcases hp with hold | hnew
        · exact h.processed m p hold
        · obtain ⟨r, hr, -, he⟩ := Server.mem_getOperationsForPeer hnew
          obtain ⟨op, hop, hk, hvc⟩ := h.server_sync sessionId bandwidthBps now serverNow hr
          exact ⟨_, op, hop, hk, hvc.trans (congrArg Operation.vectorClock he).symm⟩
  · rw [w.sync_of_ne hm] at hp
    exact h.processed m p hp

theorem provenance_sync (h : w.Provenance) (sessionId : String) (link : Option ℤ)
    (now : ℚ) (serverNow : Readings) : (w.sync n sessionId link now serverNow).Provenance := by
  have hops := ops_sync (w := w) (n := n) sessionId link now serverNow
  refine ⟨?_, ?_, ?_, ?_, ?_⟩
  · intro m
    rcases w.nodes_step (.sync n sessionId link now serverNow) m with he | ⟨nev, he, -⟩
    · exact (congrArg (fun x => x.engine.nodeId) he).trans (h.nodeId m)
    · exact (congrArg (fun x => x.engine.nodeId) he).trans
        ((Engine.nodeId_of_identity ((w.nodes m).identity_step nev)).trans (h.nodeId m))
  · intro m
    rcases w.nodes_step (.sync n sessionId link now serverNow) m with he | ⟨nev, he, hfresh⟩
    · exact Eq.mpr (congrArg Node.Traced he) (h.traced m)
    · exact Eq.mpr (congrArg Node.Traced he) (Node.traced_step (h.traced m) nev (hfresh trivial))
  · intro key r hr
    rw [hops]
    cases link with
    | none => exact h.server key r hr
    | some bandwidthBps => exact h.server_sync sessionId bandwidthBps now serverNow hr
  · intro m p hp
    obtain ⟨m', op, hop, hk⟩ := h.processed_sync sessionId link now serverNow hp
    exact ⟨m', op, (hops m').symm ▸ hop, hk⟩
  · intro key
    have hstamps : (w.sync n sessionId link now serverNow).stamps key = w.stamps key := by
      unfold stamps
      simp only [hops]
    rw [hstamps]
    exact h.attested key

end Sync

theorem provenance_step {w : World V} (h : w.Provenance) (ev : WorldEvent V) (hev : w.Fresh ev) :
    (w.step ev).Provenance := by
  cases ev with
  | call n c => exact provenance_call h hev
  | sync n sessionId link now serverNow => exact provenance_sync h sessionId link now serverNow
  | register now nodeId => exact { h with }

end World
end Dhava
