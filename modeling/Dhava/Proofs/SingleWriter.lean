import Dhava.Proofs.Journal
import Dhava.Proofs.Provenance

/-! One writer. What the writer has issued on a record is a journal, and the server's row
agrees with it as far as it was delivered, as long as no merge and no delete overtakes an
operation on its record in the outbox. -/

namespace Dhava

open Foundations ConflictResolver Journal

variable {V : Type}

/-- The server has acknowledged the operation. -/
def Node.Delivered (node : Node V) (op : Operation V) : Prop :=
  ∃ r ∈ node.engine.outbox.rows, r.asCreated = op ∧ r.syncState = .synced

/-- What a node has issued on a record. -/
def Node.history (node : Node V) (key : Key) : List (Operation V × Record V) :=
  node.issued.filter fun p => p.1.key = key

theorem Node.mem_history {node : Node V} {key : Key} {p : Operation V × Record V} :
    p ∈ node.history key ↔ p ∈ node.issued ∧ p.1.key = key := by
  simp [history]

/-- No merge and no delete in a batch is more urgent than an operation on the same record
that was issued before it and still waits. -/
def Node.SendsInOrder (node : Node V) (bandwidthBps : ℤ) : Prop :=
  ∀ b ∈ node.engine.pendingBatch bandwidthBps, b.BuildsOn →
    ∀ a ∈ node.engine.outbox.rows, a.syncState = .pending → a.key = b.key →
      a.timestamp < b.timestamp → a.priority.level ≤ b.priority.level

/-- The history depends on what was issued only. -/
theorem Node.history_congr {node node' : Node V} (h : node'.issued = node.issued) :
    node'.history = node.history := by
  funext key
  rw [history, history, h]

namespace World

/-- Only `writer` writes, with new ids and growing timestamps. -/
def SingleWriter (writer : String) (w : World V) : WorldEvent V → Prop
  | .call n c => n = writer ∧ w.Fresh (.call n c) ∧ ∀ op ∈ (w.nodes n).ops, op.timestamp < c.now
  | _ => True

theorem SingleWriter.fresh {writer : String} {w : World V} {ev : WorldEvent V}
    (h : w.SingleWriter writer ev) : w.Fresh ev := by
  cases ev with
  | call n c => exact h.2.1
  | sync n sessionId link now serverNow => exact trivial
  | register now nodeId => exact trivial

def SendsInOrder (w : World V) : WorldEvent V → Prop
  | .sync n _ (some bandwidthBps) _ _ => (w.nodes n).SendsInOrder bandwidthBps
  | _ => True

/-- A refused session has left a failed row behind. -/
def Stuck (writer : String) (w : World V) : Prop :=
  ∃ r ∈ (w.nodes writer).engine.outbox.rows, r.syncState = .failed

/-- Everything issued waits or was delivered, each record's history is a journal, the writer's
row is that of its last call, and the server's row agrees with what was delivered. -/
structure Faithful (writer : String) (w : World V) : Prop where
  waiting : ∀ op ∈ (w.nodes writer).ops, ∃ r ∈ (w.nodes writer).engine.outbox.rows,
    r.asCreated = op ∧ (r.syncState = .pending ∨ r.syncState = .synced)
  journal : ∀ key, Journal ((w.nodes writer).history key)
  row : ∀ key, (w.nodes writer).engine.localStore.get key true =
    ((w.nodes writer).history key).getLast?.map Prod.snd
  server : ∀ key, Agrees ((w.nodes writer).history key) (w.nodes writer).Delivered
    (w.server.localStore.get key true)
  order : ∀ key, NoneOvertaken ((w.nodes writer).history key) (w.nodes writer).Delivered

theorem faithful_init (writer serverNodeId : String) (resolver : ConflictResolver)
    (serverConfig : ServerConfig) (config : String → EngineConfig) :
    (init serverNodeId resolver serverConfig config : World V).Faithful writer where
  waiting := by intro op hop; cases hop
  journal := fun _ => Journal.nil
  row := fun _ => rfl
  server := fun _ => ⟨[], [], rfl, (fun q hq => by cases hq), Or.inl ⟨rfl, rfl⟩⟩
  order := by intro key p hp; cases hp

/-- Rows of one outbox with one created operation are one row. -/
theorem row_eq {node : Node V} {a b : Operation V} (ha : a ∈ node.engine.outbox.rows)
    (hb : b ∈ node.engine.outbox.rows) (h : a.asCreated = b.asCreated) : a = b :=
  OutboxQueue.eq_of_opId ha hb (Operation.opId_eq_of_asCreated h)

/-! ### A call of the writer -/

section Call

variable {w : World V} {writer : String} {c : LocalCall V}

theorem delivered_call (hrows : (w.nodes writer).RowsIssued) (hc : (w.nodes writer).Fresh (.call c))
    (op : Operation V) : ((w.nodes writer).call c).Delivered op ↔ (w.nodes writer).Delivered op := by
  unfold Node.Delivered
  rw [(Node.call_fresh hrows hc).2]
  constructor
  · intro h
    obtain ⟨r, hr, he, hs⟩ := h
    rcases List.mem_append.1 hr with hr | hr
    · exact ⟨r, hr, he, hs⟩
    · rw [List.mem_singleton.1 hr] at hs
      cases hs
  · intro h
    obtain ⟨r, hr, hrest⟩ := h
    exact ⟨r, List.mem_append_left _ hr, hrest⟩

theorem not_delivered_stamped (hrows : (w.nodes writer).RowsIssued)
    (hc : (w.nodes writer).Fresh (.call c)) :
    ¬ (w.nodes writer).Delivered ((w.nodes writer).engine.stamped c) := by
  intro h
  obtain ⟨r, hr, he, -⟩ := h
  exact hc r.asCreated (hrows r hr) (congrArg Operation.opId he)

theorem history_call (hrows : (w.nodes writer).RowsIssued)
    (hc : (w.nodes writer).Fresh (.call c)) (key : Key) :
    ((w.nodes writer).call c).history key =
      (w.nodes writer).history key ++ if key = c.key then [(w.nodes writer).issue c] else [] := by
  unfold Node.history
  rw [(Node.call_fresh hrows hc).1, List.filter_append]
  congr 1
  have hkey : ((w.nodes writer).issue c).1.key = c.key := rfl
  by_cases hk : key = c.key
  · simp [hkey, hk]
  · simp [hkey, hk, Ne.symm hk]

/-- Where the writer has written a record, its store shows the clock of the last operation. -/
theorem storedClock_of_getLast (hp : (w.nodes writer).Traced) (h : w.Faithful writer) {key : Key}
    {last : Operation V × Record V} (hlast : ((w.nodes writer).history key).getLast? = some last) :
    (w.nodes writer).engine.storedClock key = VectorClock.ofDict last.1.vectorClock := by
  have hrow := h.row key
  rw [hlast, Option.map_some] at hrow
  obtain ⟨existing, hret⟩ := hp.returned last (Node.mem_history.1 (List.mem_of_getLast? hlast)).1
  rcases (w.nodes writer).engine.storedClock_cases key with ⟨hnone, -⟩ | ⟨r, hr, hclock⟩
  · rw [hnone] at hrow
    cases hrow
  · rw [hrow] at hr
    obtain rfl := Option.some.inj hr
    rw [hclock, hret, LocalStore.vectorClock_written]

/-- The operation a call issues comes after all others on its record. -/
theorem issuedBefore_issue (hp : (w.nodes writer).Traced) (h : w.Faithful writer)
    (htime : ∀ op ∈ (w.nodes writer).ops, op.timestamp < c.now) {q : Operation V × Record V}
    (hq : q ∈ (w.nodes writer).history c.key) : IssuedBefore q ((w.nodes writer).issue c) := by
  refine ⟨?_, htime q.1 (List.mem_map_of_mem (Node.mem_history.1 hq).1)⟩
  obtain ⟨last, hlast⟩ := Option.isSome_iff_exists.1
    (List.getLast?_isSome.2 (List.ne_nil_of_mem hq))
  have hnew : VectorClock.ofDict last.1.vectorClock <
      VectorClock.ofDict ((w.nodes writer).issue c).1.vectorClock := by
    change _ < VectorClock.ofDict ((w.nodes writer).engine.stamped c).vectorClock
    rw [Engine.stamped_clock, VectorClock.ofDict_clocks, storedClock_of_getLast hp h hlast]
    exact VectorClock.lt_increment _ _
  exact ((h.journal c.key).le_getLast hlast hq).trans_lt hnew

theorem faithful_call (hp : w.Provenance) (h : w.Faithful writer)
    (hc : w.SingleWriter writer (.call writer c)) : (w.step (.call writer c)).Faithful writer := by
  obtain ⟨-, hfresh, htime⟩ := hc
  have hrows := (hp.traced writer).rows
  have hnode := w.call_self writer c
  have hdone := delivered_call hrows hfresh
  have hnew := not_delivered_stamped hrows hfresh
  have hlast : ∀ q ∈ (w.nodes writer).history c.key, IssuedBefore q ((w.nodes writer).issue c) :=
    fun q hq => issuedBefore_issue (hp.traced writer) h htime hq
  have hissue : ((w.nodes writer).issue c).2 =
      LocalStore.written (((w.nodes writer).history c.key).getLast?.map Prod.snd)
        ((w.nodes writer).issue c).1 := by
    rw [← h.row]
    rfl
  refine ⟨?_, ?_, ?_, ?_, ?_⟩
  · intro op hop
    rw [hnode] at hop ⊢
    rw [(Node.call_fresh hrows hfresh).2]
    rw [Node.ops, (Node.call_fresh hrows hfresh).1, List.map_append, List.mem_append] at hop
    rcases hop with hop | hop
    · obtain ⟨r, hr, hrest⟩ := h.waiting op hop
      exact ⟨r, List.mem_append_left _ hr, hrest⟩
    · obtain rfl : op = (w.nodes writer).engine.stamped c := by simpa [Node.issue] using hop
      exact ⟨_, List.mem_append_right _ (List.mem_singleton_self _), rfl, Or.inl rfl⟩
  · intro key
    rw [hnode, history_call hrows hfresh]
    split_ifs with hk
    · subst hk
      exact (h.journal c.key).concat hissue hlast
    · rw [List.append_nil]
      exact h.journal key
  · intro key
    rw [hnode, history_call hrows hfresh, Node.call_engine,
      ((w.nodes writer).engine.call_wrote c).get]
    split_ifs with hk
    · rw [List.getLast?_concat]
      rfl
    · rw [List.append_nil]
      exact h.row key
  · intro key
    have hserver : Agrees _ ((w.nodes writer).call c).Delivered _ :=
      (h.server key).congr fun p _ => hdone p.1
    rw [hnode, history_call hrows hfresh]
    split_ifs with hk
    · exact hserver.concat fun hd => hnew ((hdone _).1 hd)
    · rw [List.append_nil]
      exact hserver
  · intro key
    have horder : NoneOvertaken _ ((w.nodes writer).call c).Delivered :=
      (h.order key).congr fun p _ => hdone p.1
    rw [hnode, history_call hrows hfresh]
    split_ifs with hk
    · subst hk
      exact horder.concat (fun hd => hnew ((hdone _).1 hd)) hlast
    · rw [List.append_nil]
      exact horder

end Call

/-! ### A batch -/

section Batch

variable {w : World V} {writer : String} {bandwidthBps : ℤ}

/-- What is done after a part of a batch. -/
def DoneWith (node : Node V) (sent : List (Operation V)) (op : Operation V) : Prop :=
  node.Delivered op ∨ ∃ b ∈ sent, b.asCreated = op

theorem pending_of_batch {node : Node V} {b : Operation V}
    (hb : b ∈ node.engine.pendingBatch bandwidthBps) :
    b ∈ node.engine.outbox.rows ∧ b.syncState = .pending := by
  obtain ⟨hrow, hsel⟩ := OutboxQueue.mem_getPending hb
  exact ⟨hrow, OutboxQueue.pending_of_selects hsel⟩

/-- When a merge or a delete is taken in, all that was issued before it on its record is. -/
theorem ready_of_sendsInOrder (h : w.Faithful writer)
    (hsend : (w.nodes writer).SendsInOrder bandwidthBps)
    {pre post : List (Operation V)} {b : Operation V}
    (hbatch : (w.nodes writer).engine.pendingBatch bandwidthBps = pre ++ b :: post) (hb : b.BuildsOn)
    {q : Operation V × Record V} (hq : q ∈ (w.nodes writer).history b.key)
    (htime : q.1.timestamp < b.timestamp) : DoneWith (w.nodes writer) pre q.1 := by
  obtain ⟨hissued, hkey⟩ := Node.mem_history.1 hq
  obtain ⟨a, ha, he, hs | hs⟩ := h.waiting q.1 (List.mem_map_of_mem hissued)
  · have hbmem : b ∈ (w.nodes writer).engine.pendingBatch bandwidthBps := by simp [hbatch]
    have hakey : a.key = b.key := (congrArg Operation.key he : a.asCreated.key = q.1.key).trans hkey
    have hatime : a.timestamp < b.timestamp := (congrArg Operation.timestamp he).trans_lt htime
    have hle := hsend b hbmem hb a ha hs hakey hatime
    have hsel := OutboxQueue.selects_of_level_le (OutboxQueue.mem_getPending hbmem).2 hs hle
    refine Or.inr ⟨a, OutboxQueue.mem_ahead_getPending hbatch ha hsel ?_, he⟩
    intro hahead
    rcases hahead with hlt | ⟨-, hts⟩
    · omega
    · exact absurd hatime (not_lt.2 hts)
  · exact Or.inl ⟨a, ha, he, hs⟩

/-- What is next in a batch is not done yet: it is pending, and no batch has it twice. -/
theorem not_done_of_batch {node : Node V} {pre post : List (Operation V)} {b : Operation V}
    (hbatch : node.engine.pendingBatch bandwidthBps = pre ++ b :: post) :
    ¬ DoneWith node pre b.asCreated := by
  have hmem : ∀ b' ∈ pre ++ b :: post, b' ∈ node.engine.outbox.rows ∧ b'.syncState = .pending :=
    fun b' hb' => pending_of_batch (hbatch.symm ▸ hb')
  obtain ⟨hrow, hpend⟩ := hmem b (by simp)
  intro hdone
  rcases hdone with ⟨r, hr, he, hs⟩ | ⟨b', hb', he⟩
  · rw [row_eq hr hrow he, hpend] at hs
    cases hs
  · have hnodup : (pre ++ b :: post).Nodup := hbatch ▸ OutboxQueue.nodup_getPending _ _ _ _ _
    obtain rfl := row_eq (hmem b' (by simp [hb'])).1 hrow he
    exact (List.nodup_append.1 hnodup).2.2 b' hb' b' (by simp) rfl

theorem doneWith_concat (node : Node V) (pre : List (Operation V)) (b op : Operation V) :
    DoneWith node (pre ++ [b]) op ↔ DoneWith node pre op ∨ op = b.asCreated := by
  simp only [DoneWith, List.mem_append, List.mem_singleton, or_assoc, or_and_right, exists_or,
    exists_eq_left]
  rw [eq_comm (a := op)]

/-- After every part of a batch the server's rows agree with the journals. -/
theorem agrees_batch (hp : w.Provenance) (h : w.Faithful writer) (self : ConflictResolver)
    (hsend : (w.nodes writer).SendsInOrder bandwidthBps)
    (sent rest : List (Operation V))
    (hbatch : (w.nodes writer).engine.pendingBatch bandwidthBps = sent ++ rest) (key : Key) :
    Agrees ((w.nodes writer).history key) (DoneWith (w.nodes writer) sent)
        ((sent.foldl self.process w.server.localStore).get key true) ∧
      NoneOvertaken ((w.nodes writer).history key) (DoneWith (w.nodes writer) sent) := by
  induction sent using List.reverseRecOn generalizing rest with
  | nil =>
    have hnone : ∀ op, DoneWith (w.nodes writer) [] op ↔ (w.nodes writer).Delivered op := by
      simp [DoneWith]
    exact ⟨(h.server key).congr fun p _ => hnone p.1, (h.order key).congr fun p _ => hnone p.1⟩
  | append_singleton pre b ih =>
    rw [List.append_assoc, List.singleton_append] at hbatch
    obtain ⟨hag, hover⟩ := ih (b :: rest) hbatch
    have hbmem : b ∈ (w.nodes writer).engine.pendingBatch bandwidthBps := by simp [hbatch]
    have hmore := doneWith_concat (w.nodes writer) pre b
    rw [List.foldl_append, List.foldl_cons, List.foldl_nil, ConflictResolver.get_process]
    by_cases hk : key = b.key
    · subst hk
      rw [if_pos rfl]
      obtain ⟨rec, hrec⟩ := Node.mem_ops.1 (hp.batch hbmem).1
      have hmem : (b.asCreated, rec) ∈ (w.nodes writer).history b.key :=
        Node.mem_history.2 ⟨hrec, rfl⟩
      have hready : b.asCreated.BuildsOn → ∀ q ∈ (w.nodes writer).history b.key,
          IssuedBefore q (b.asCreated, rec) → DoneWith (w.nodes writer) pre q.1 :=
        fun hb q hq hqb => ready_of_sendsInOrder h hsend hbatch hb hq hqb.2
      have hnew := not_done_of_batch hbatch
      have hstep := agrees_settle self (h.journal b.key) hag hover hmem hnew hready
      have horder := noneOvertaken_insert (h.journal b.key) hover hmem hready
      exact ⟨hstep.congr fun p _ => hmore p.1, horder.congr fun p _ => hmore p.1⟩
    · rw [if_neg hk]
      have hsame : ∀ p ∈ (w.nodes writer).history key,
          DoneWith (w.nodes writer) (pre ++ [b]) p.1 ↔ DoneWith (w.nodes writer) pre p.1 := by
        intro p hpk
        rw [hmore, or_iff_left]
        intro he
        have hkey : p.1.key = b.asCreated.key := congrArg Operation.key he
        exact hk ((Node.mem_history.1 hpk).2.symm.trans hkey)
      exact ⟨hag.congr hsame, hover.congr hsame⟩

end Batch

/-! ### A sync -/

section Sync

variable {w : World V} {writer : String}

/-- Without another writer nothing is pulled by the writer. -/
theorem delta_writer (hp : w.Provenance) (halone : ∀ m, m ≠ writer → (w.nodes m).issued = [])
    (now : ℚ) (vc : VectorClock) : w.server.getOperationsForPeer now vc writer = [] := by
  refine List.eq_nil_iff_forall_not_mem.2 fun op hop => ?_
  obtain ⟨r, hr, hnew, -⟩ := Server.mem_getOperationsForPeer hop
  obtain ⟨o, ho, -⟩ := hp.server _ r hr
  have hby : r.lastModifiedBy = writer := by
    by_contra hne
    rw [Node.ops, halone _ hne] at ho
    cases ho
  simp [Server.newForPeer, hby] at hnew

/-- Nothing of the writer or of the server's records has changed. -/
theorem Faithful.congr {w' : World V} (h : w.Faithful writer)
    (hissued : (w'.nodes writer).issued = (w.nodes writer).issued)
    (hstore : (w'.nodes writer).engine.localStore = (w.nodes writer).engine.localStore)
    (hrows : ∀ r, r ∈ (w'.nodes writer).engine.outbox.rows ↔ r ∈ (w.nodes writer).engine.outbox.rows)
    (hserver : w'.server.localStore = w.server.localStore) : w'.Faithful writer := by
  have hhist := Node.history_congr hissued
  have hdone : (w'.nodes writer).Delivered = (w.nodes writer).Delivered := by
    funext op
    unfold Node.Delivered
    simp only [hrows]
  refine ⟨?_, ?_, ?_, ?_, ?_⟩
  · intro op hop
    rw [Node.ops, hissued] at hop
    obtain ⟨r, hr, hrest⟩ := h.waiting op hop
    exact ⟨r, (hrows r).2 hr, hrest⟩
  · rw [hhist]
    exact h.journal
  · rw [hhist, hstore]
    exact h.row
  · rw [hhist, hdone, hserver]
    exact h.server
  · rw [hhist, hdone]
    exact h.order

/-- The batch is marked: what is done is what was delivered or in the batch. -/
theorem delivered_markSynced {node node' : Node V} {ops : List (Operation V)} {now : ℚ}
    (hops : ∀ b ∈ ops, b ∈ node.engine.outbox.rows)
    (hrows : node'.engine.outbox.rows =
      (node.engine.outbox.markSynced (ops.map Operation.opId) now).rows) (op : Operation V) :
    node'.Delivered op ↔ DoneWith node ops op := by
  unfold Node.Delivered DoneWith
  simp only [hrows, OutboxQueue.mem_markSynced]
  constructor
  · intro h
    obtain ⟨r, ⟨r₀, h₀, rfl⟩, he, hs⟩ := h
    split_ifs at he hs with hin
    · obtain ⟨b, hb, hid⟩ := List.mem_map.1 hin
      obtain rfl := OutboxQueue.eq_of_opId (hops b hb) h₀ hid
      exact Or.inr ⟨b, hb, he⟩
    · exact Or.inl ⟨r₀, h₀, he, hs⟩
  · intro h
    rcases h with ⟨r, hr, rfl, hs⟩ | ⟨b, hb, rfl⟩
    · refine ⟨_, ⟨r, hr, rfl⟩, by split_ifs <;> rfl, ?_⟩
      split_ifs
      · rfl
      · exact hs
    · have hin : b.opId ∈ ops.map Operation.opId := List.mem_map_of_mem hb
      exact ⟨_, ⟨b, hops b hb, rfl⟩, by rw [if_pos hin]; rfl, by rw [if_pos hin]⟩

theorem faithful_synced {w' : World V} (hp : w.Provenance) (hp' : w'.Provenance)
    (h : w.Faithful writer)
    (halone : ∀ m, m ≠ writer → (w'.nodes m).issued = [])
    (hissued : (w'.nodes writer).issued = (w.nodes writer).issued) {bandwidthBps : ℤ}
    {now : ℚ} {serverNow : Readings}
    (hsync : Synced w w' writer bandwidthBps now serverNow)
    (hsend : (w.nodes writer).SendsInOrder bandwidthBps) : w'.Faithful writer := by
  have hbatch := agrees_batch hp h w.server.conflictResolver hsend
    ((w.nodes writer).engine.pendingBatch bandwidthBps) [] (List.append_nil _).symm
  have hhist := Node.history_congr hissued
  have hdone := delivered_markSynced (fun b hb => (pending_of_batch hb).1) hsync.rows
  refine ⟨?_, ?_, ?_, ?_, ?_⟩
  · intro op hop
    rw [Node.ops, hissued] at hop
    obtain ⟨r, hr, he, hs⟩ := h.waiting op hop
    rw [hsync.rows]
    refine ⟨_, OutboxQueue.mem_markSynced.2 ⟨r, hr, rfl⟩, ?_, ?_⟩
    · rw [← he]
      split_ifs <;> rfl
    · split_ifs
      · exact Or.inr rfl
      · exact hs
  · rw [hhist]
    exact h.journal
  · intro key
    rw [hhist, hsync.localStore, hp.nodeId, delta_writer hp' halone]
    exact h.row key
  · intro key
    rw [hhist, hsync.server]
    exact (hbatch key).1.congr fun p _ => hdone p.1
  · intro key
    rw [hhist]
    exact (hbatch key).2.congr fun p _ => hdone p.1

/-- A refused session leaves a failed row, unless there was nothing to send. -/
theorem refused_cases {w' : World V} (h : w.Faithful writer)
    (hissued : (w'.nodes writer).issued = (w.nodes writer).issued) {bandwidthBps : ℤ}
    (href : Refused w w' writer bandwidthBps) : w'.Stuck writer ∨ w'.Faithful writer := by
  obtain ⟨error, hrows⟩ := href.rows
  cases hb : (w.nodes writer).engine.pendingBatch bandwidthBps with
  | nil =>
    refine Or.inr (h.congr hissued href.localStore (fun r => ?_) (by rw [href.server]))
    rw [hrows, hb, OutboxQueue.mem_markFailed]
    simp
  | cons b rest =>
    have hmem : b ∈ (w.nodes writer).engine.pendingBatch bandwidthBps := by simp [hb]
    refine Or.inl ⟨_, hrows ▸ OutboxQueue.mem_markFailed.2 ⟨b, (pending_of_batch hmem).1, rfl⟩, ?_⟩
    rw [if_pos (List.mem_map_of_mem hmem)]

end Sync

/-! ### Whole runs -/

section Run

variable {w : World V} {writer : String}

/-- Nobody but the writer has issued anything. -/
def Alone (writer : String) (w : World V) : Prop := ∀ m, m ≠ writer → (w.nodes m).issued = []

theorem alone_step (h : w.Alone writer) (ev : WorldEvent V) (hev : w.SingleWriter writer ev) :
    (w.step ev).Alone writer := by
  intro m hm
  cases ev with
  | call n c =>
    obtain ⟨rfl, -⟩ := hev
    rw [w.call_of_ne hm]
    exact h m hm
  | sync n sessionId link now serverNow =>
    exact (w.issued_sync n sessionId link now serverNow m).trans (h m hm)
  | register now nodeId => exact h m hm

theorem stuck_call (h : w.Stuck writer) (n : String) (c : LocalCall V) :
    (w.step (.call n c)).Stuck writer := by
  obtain ⟨r, hr, hs⟩ := h
  unfold Stuck
  by_cases hn : writer = n
  · subst hn
    rw [w.call_self]
    rcases (w.nodes writer).call_cases c with ⟨-, hrows⟩ | ⟨-, hrows, -⟩
    · exact ⟨r, hrows ▸ List.mem_append_left _ hr, hs⟩
    · exact ⟨r, hrows ▸ hr, hs⟩
  · rw [w.call_of_ne hn]
    exact ⟨r, hr, hs⟩

/-- A failed row is in no batch, so a sync does not touch it or fails it again. -/
theorem stuck_sync (h : w.Stuck writer) (n sessionId : String) (link : Option ℤ)
    (now : ℚ) (serverNow : Readings) : (w.sync n sessionId link now serverNow).Stuck writer := by
  obtain ⟨r, hr, hs⟩ := h
  unfold Stuck
  by_cases hn : writer = n
  · subst hn
    cases link with
    | none =>
      rw [w.sync_none_self]
      exact ⟨r, hr, hs⟩
    | some bandwidthBps =>
      rcases w.sync_cases writer sessionId bandwidthBps now serverNow with href | hsync
      · obtain ⟨error, hrows⟩ := href.rows
        rw [hrows]
        refine ⟨_, OutboxQueue.mem_markFailed.2 ⟨r, hr, rfl⟩, ?_⟩
        split_ifs
        · rfl
        · exact hs
      · rw [hsync.rows]
        refine ⟨_, OutboxQueue.mem_markSynced.2 ⟨r, hr, rfl⟩, ?_⟩
        rw [if_neg]
        · exact hs
        · intro hin
          obtain ⟨b, hb, hid⟩ := List.mem_map.1 hin
          obtain ⟨hrow, hpend⟩ := pending_of_batch hb
          obtain rfl := OutboxQueue.eq_of_opId hrow hr hid
          rw [hpend] at hs
          cases hs
  · rw [w.sync_of_ne hn]
    exact ⟨r, hr, hs⟩

/-- A failed row stays failed without a restart. -/
theorem stuck_step (h : w.Stuck writer) (ev : WorldEvent V) : (w.step ev).Stuck writer := by
  cases ev with
  | call n c => exact stuck_call h n c
  | sync n sessionId link now serverNow => exact stuck_sync h n sessionId link now serverNow
  | register now nodeId => exact h

/-- A node that has issued nothing sends nothing. -/
theorem batch_of_alone (hp : w.Provenance) {n : String} (h : (w.nodes n).issued = [])
    (bandwidthBps : ℤ) : (w.nodes n).engine.pendingBatch bandwidthBps = [] := by
  refine List.eq_nil_iff_forall_not_mem.2 fun b hb => ?_
  have hop := (hp.batch hb).1
  rw [Node.ops, h] at hop
  cases hop

theorem faithful_sync (hp : w.Provenance) (halone : w.Alone writer) (h : w.Faithful writer)
    {n : String} (sessionId : String) (link : Option ℤ) (now : ℚ) (serverNow : Readings)
    (hsend : w.SendsInOrder (.sync n sessionId link now serverNow)) :
    (w.sync n sessionId link now serverNow).Stuck writer ∨
      (w.sync n sessionId link now serverNow).Faithful writer := by
  have hissued := w.issued_sync n sessionId link now serverNow
  by_cases hn : writer = n
  · subst hn
    cases link with
    | none =>
      have hnode := w.sync_none_self writer sessionId now serverNow
      refine Or.inr (h.congr (hissued writer) ?_ (fun r => ?_) rfl)
      · rw [hnode]
        rfl
      · rw [hnode]
        rfl
    | some bandwidthBps =>
      rcases w.sync_cases writer sessionId bandwidthBps now serverNow with href | hsync
      · exact refused_cases h (hissued writer) href
      · have hp' := provenance_sync (n := writer) hp sessionId (some bandwidthBps) now serverNow
        refine Or.inr (faithful_synced hp hp' h (fun m hm => ?_) (hissued writer) hsync hsend)
        exact (hissued m).trans (halone m hm)
  · have hnode := w.sync_of_ne hn sessionId link now serverNow
    refine Or.inr (h.congr (hissued writer) (by rw [hnode]) (fun r => by rw [hnode]) ?_)
    cases link with
    | none => rfl
    | some bandwidthBps =>
      rcases w.sync_cases n sessionId bandwidthBps now serverNow with href | hsync
      · rw [href.server]
      · rw [hsync.server, batch_of_alone hp (halone n (Ne.symm hn))]
        rfl

theorem faithful_step (hp : w.Provenance) (halone : w.Alone writer)
    (h : w.Stuck writer ∨ w.Faithful writer) (ev : WorldEvent V)
    (hev : w.SingleWriter writer ev ∧ w.SendsInOrder ev) :
    (w.step ev).Stuck writer ∨ (w.step ev).Faithful writer := by
  rcases h with hstuck | h
  · exact Or.inl (stuck_step hstuck ev)
  cases ev with
  | call n c =>
    obtain ⟨rfl, -⟩ := hev.1
    exact Or.inr (faithful_call hp h hev.1)
  | sync n sessionId link now serverNow =>
    exact faithful_sync hp halone h sessionId link now serverNow hev.2
  | register now nodeId => exact Or.inr (h.congr rfl rfl (fun _ => Iff.rfl) rfl)

end Run

/-- Both sides read the same: nothing, or equal data under equal clocks. -/
def Replicated (writer : String) (w : World V) : Prop :=
  ∀ key, (w.server.localStore.get key = none ∧ (w.nodes writer).engine.localStore.get key = none) ∨
    ∃ r ∈ w.server.localStore.get key, ∃ r' ∈ (w.nodes writer).engine.localStore.get key,
      r.data = r'.data ∧ r.vectorClock = r'.vectorClock

theorem Faithful.replicated {w : World V} {writer : String} (hp : w.Provenance)
    (h : w.Faithful writer)
    (hall : ∀ r ∈ (w.nodes writer).engine.outbox.rows, r.syncState = .synced) :
    w.Replicated writer := by
  intro key
  have hdone : ∀ p ∈ (w.nodes writer).history key, (w.nodes writer).Delivered p.1 := by
    intro p hpk
    obtain ⟨r, hr, he, -⟩ := h.waiting p.1 (List.mem_map_of_mem (Node.mem_history.1 hpk).1)
    exact ⟨r, hr, he, hall r hr⟩
  have hrow := h.row key
  rcases agrees_all (h.server key) hdone with ⟨hnil, hserver⟩ | ⟨p, hlast, hdata, hstand⟩
  · rw [hnil] at hrow
    refine Or.inl ⟨(get_eq_none_iff _ _).2 ?_, (get_eq_none_iff _ _).2 ?_⟩
    · rw [hserver]
      exact fun r hr => by cases hr
    · rw [hrow]
      exact fun r hr => by cases hr
  · rw [hlast] at hrow
    have hissued := (Node.mem_history.1 (List.mem_of_getLast? hlast)).1
    obtain ⟨existing, hret⟩ := (hp.traced writer).returned p hissued
    split_ifs at hstand with hdel
    · refine Or.inl ⟨(get_eq_none_iff _ _).2 hstand, (get_eq_none_iff _ _).2 ?_⟩
      rw [hrow, Option.map_some, hret]
      exact gone_written existing hdel
    · obtain ⟨r, hr, hlive, hvc⟩ := hstand
      have hlive' : p.2.deleted = false := by
        rw [hret, LocalStore.deleted_written]
        exact decide_eq_false hdel
      refine Or.inr ⟨r, (LocalStore.get_eq_some_iff _ _ _).2 ⟨hr, hlive⟩, p.2,
        (LocalStore.get_eq_some_iff _ _ _).2 ⟨hrow, hlive'⟩, ?_, ?_⟩
      · rw [hr] at hdata
        exact hdata
      · rw [hvc, hret, LocalStore.vectorClock_written]

/-- In every run of one writer in which no sync sends a merge or a delete ahead of an earlier
operation on its record, the server reads as the writer whenever all rows are synced. -/
theorem single_writer_replicated (serverNodeId : String) (resolver : ConflictResolver)
    (serverConfig : ServerConfig) (config : String → EngineConfig) (writer : String)
    (evs : List (WorldEvent V))
    (h : Admitted step (fun w ev => w.SingleWriter writer ev ∧ w.SendsInOrder ev)
      (init serverNodeId resolver serverConfig config) evs)
    (hall : ∀ r ∈ ((replay step (init serverNodeId resolver serverConfig config)
      evs).nodes writer).engine.outbox.rows, r.syncState = .synced) :
    (replay step (init serverNodeId resolver serverConfig config) evs).Replicated writer := by
  have hinv := h.invariant
    (P := fun w => w.Provenance ∧ w.Alone writer ∧ (w.Stuck writer ∨ w.Faithful writer))
    ⟨provenance_init serverNodeId resolver serverConfig config, fun _ _ => rfl,
      Or.inr (faithful_init writer serverNodeId resolver serverConfig config)⟩
    fun w ev hw hev => ⟨provenance_step hw.1 ev hev.1.fresh, alone_step hw.2.1 ev hev.1,
      faithful_step hw.1 hw.2.1 hw.2.2 ev hev⟩
  obtain ⟨hp, -, hstuck | hfaithful⟩ := hinv
  · obtain ⟨r, hr, hs⟩ := hstuck
    rw [hall r hr] at hs
    cases hs
  · exact hfaithful.replicated hp hall

instance (writer : String) (w : World V) :
    (ev : WorldEvent V) → Decidable (w.SingleWriter writer ev)
  | .call n c => inferInstanceAs (Decidable
    (n = writer ∧ w.Fresh (.call n c) ∧ ∀ op ∈ (w.nodes n).ops, op.timestamp < c.now))
  | .sync .. => inferInstanceAs (Decidable True)
  | .register .. => inferInstanceAs (Decidable True)

instance (op : Operation V) : Decidable op.BuildsOn :=
  inferInstanceAs (Decidable (op.opType = .merge ∨ op.opType = .delete))

instance (node : Node V) (bandwidthBps : ℤ) : Decidable (node.SendsInOrder bandwidthBps) :=
  inferInstanceAs (Decidable (∀ b ∈ node.engine.pendingBatch bandwidthBps, b.BuildsOn →
    ∀ a ∈ node.engine.outbox.rows, a.syncState = .pending → a.key = b.key →
      a.timestamp < b.timestamp → a.priority.level ≤ b.priority.level))

instance (w : World V) : (ev : WorldEvent V) → Decidable (w.SendsInOrder ev)
  | .sync n _ (some bandwidthBps) _ _ =>
    inferInstanceAs (Decidable ((w.nodes n).SendsInOrder bandwidthBps))
  | .sync _ _ none _ _ => inferInstanceAs (Decidable True)
  | .call .. => inferInstanceAs (Decidable True)
  | .register .. => inferInstanceAs (Decidable True)

theorem single_writer_replicated_example :
    (replay step (init "hq" { nodeId := "hq" } {} fun _ => {})
      [sampleWrite .create "x" .p2 "u" 0, sampleWrite .merge "y" .p2 "v" 1,
        .sync "a" "1" (some 2000000) 2 2, sampleWrite .delete "x" .p0 "d" 3,
        .sync "a" "2" (some 9600) 4 4]).Replicated "a" :=
  single_writer_replicated "hq" { nodeId := "hq" } {} (fun _ => {}) "a" _ (by decide +kernel)
    (by decide +kernel)

/-- A routine create and an urgent merge. Over the narrow link only the merge goes out, and
the create that follows it over the wide one is older than the row it finds. -/
def mergeOvertakes : List (WorldEvent ℕ) :=
  [sampleWrite .create "x" .p2 "u" 0, sampleWrite .merge "y" .p0 "v" 1,
    .sync "a" "1" (some 9600) 2 2, .sync "a" "2" (some 2000000) 3 3]

/-- Everything is acknowledged, and the server never gets the created field. -/
theorem mergeOvertakes_not_replicated :
    Admitted step (SingleWriter "a") (init "hq" { nodeId := "hq" } {} fun _ => {}) mergeOvertakes ∧
      (∀ r ∈ ((replay step (init "hq" { nodeId := "hq" } {} fun _ => {})
        mergeOvertakes).nodes "a").engine.outbox.rows, r.syncState = .synced) ∧
      ¬ (replay step (init "hq" { nodeId := "hq" } {} fun _ => {})
        mergeOvertakes).Replicated "a" := by
  refine ⟨by decide +kernel, by decide +kernel, fun h => ?_⟩
  set w := replay step (init "hq" { nodeId := "hq" } {} fun _ => {}) mergeOvertakes with hw
  have hdiff : ∃ r ∈ w.server.localStore.get ("incidents", "r"),
      ∃ r' ∈ (w.nodes "a").engine.localStore.get ("incidents", "r"), r.data ≠ r'.data := by
    rw [hw]
    decide +kernel
  obtain ⟨r, hr, r', hr', hne⟩ := hdiff
  rcases h ("incidents", "r") with ⟨hnone, -⟩ | ⟨q, hq, q', hq', heq, -⟩
  · rw [hnone] at hr
    cases hr
  · obtain rfl := Option.mem_unique hr hq
    obtain rfl := Option.mem_unique hr' hq'
    exact hne heq

end World
end Dhava
