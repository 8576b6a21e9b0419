import Dhava.Proofs.History
import Dhava.Proofs.LwwOrder
import Dhava.Spec.Daemon
import Dhava.Spec.Server

/-! Runs of a node with its background worker. The worker syncs only where something waits,
so a node with nothing to send gets nothing; and it purges only what was acknowledged. -/

namespace Dhava

open Foundations

variable {V W : Type}

namespace OutboxQueue

theorem pendingCount_eq_zero (q : OutboxQueue V) :
    q.pendingCount = 0 ↔ ∀ r ∈ q.rows, r.syncState ≠ .pending := by
  unfold pendingCount
  rw [List.length_eq_zero_iff, List.filter_eq_nil_iff]
  simp

theorem rows_purgeSynced_sublist (q : OutboxQueue V) (now older : ℚ) :
    (q.purgeSynced now older).rows.Sublist q.rows := List.filter_sublist

end OutboxQueue

namespace Daemon

/-- The node but for its state and its last error. -/
def content (node : Node V) : Node V :=
  { node with engine := { node.engine with state := .disconnected, lastError := none } }

/-- The same sessions and the same world, and the same node but for its state and last error. -/
structure Same (d d' : Daemon V W) : Prop where
  node : content d'.node = content d.node
  world : d'.world = d.world
  sessions : d'.sessions = d.sessions

theorem Same.trans {d d' d'' : Daemon V W} (h : Same d d') (h' : Same d' d'') : Same d d'' :=
  ⟨h'.node.trans h.node, h'.world.trans h.world, h'.sessions.trans h.sessions⟩

/-- A session the worker has started where something waits. -/
def Session (d : Daemon V W) (p : Pass) (d' : Daemon V W) : Prop :=
  p.active = .ok true ∧ 0 < d.node.engine.outbox.pendingCount ∧
    ∃ node₀, content node₀ = content d.node ∧
      (d'.node = node₀ ∨ ∃ x, d'.node = node₀.sync p.sessionId p.link p.now p.faults x)

variable (exchange : SyncPushRequest V → W → Exchange V × W)

theorem node_syncNow (d : Daemon V W) (sessionId : String) (link : Option ℤ) (now : ℚ)
    (faults : ℕ → Option Fault) :
    ∃ x, (d.syncNow exchange sessionId link now faults).node =
      d.node.sync sessionId link now faults x :=
  ⟨_, rfl⟩

/-- What the transports and the outbox come to: a session, or nothing but a state. -/
theorem monitor_cases (d : Daemon V W) (p : Pass) :
    Same d (d.monitor exchange p).1 ∨ Session d p (d.monitor exchange p).1 := by
  unfold monitor
  cases hactive : p.active with
  | error exc => exact Or.inl ⟨rfl, rfl, rfl⟩
  | ok active =>
    cases active with
    | false => exact Or.inl ⟨rfl, rfl, rfl⟩
    | true =>
      simp only
      set d₀ := if d.node.engine.state = .disconnected then d.setState .connected else d
      have hsame : Same d d₀ := by
        unfold d₀
        split_ifs <;> exact ⟨rfl, rfl, rfl⟩
      have hcount : d₀.node.engine.outbox.pendingCount = d.node.engine.outbox.pendingCount :=
        congrArg (fun n => n.engine.outbox.pendingCount) hsame.node
      cases p.countRaises with
      | some exc => exact Or.inl hsame
      | none =>
        simp only
        split_ifs with hpending
        · cases p.syncRaises with
          | some exc =>
            exact Or.inr ⟨hactive, hcount ▸ hpending, d₀.node, hsame.node, Or.inl rfl⟩
          | none =>
            exact Or.inr ⟨hactive, hcount ▸ hpending, d₀.node, hsame.node,
              Or.inr (d₀.node_syncNow exchange _ _ _ _)⟩
        · exact Or.inl hsame

/-- The worker after a purge. -/
def purged (d : Daemon V W) (p : Pass) : Daemon V W :=
  { d with
    node.engine.outbox := d.node.engine.outbox.purgeSynced p.purgedAt d.purgeSyncedAfterSeconds }

theorem same_note (d : Daemon V W) (raised : Option String) : Same d (d.note raised) := by
  cases raised <;> exact ⟨rfl, rfl, rfl⟩

theorem purge_cases (d : Daemon V W) (p : Pass) :
    Same d (d.purge p).1 ∨ Same (d.purged p) (d.purge p).1 := by
  unfold purge
  split_ifs
  · cases p.purgeRaises with
    | some exc => exact Or.inl ⟨rfl, rfl, rfl⟩
    | none => exact Or.inr ⟨rfl, rfl, rfl⟩
  · exact Or.inl ⟨rfl, rfl, rfl⟩

/-- A pass is a session or nothing, then a purge or nothing. -/
theorem pass_cases (d : Daemon V W) (p : Pass) :
    ∃ m, (Same d m ∨ Session d p m) ∧
      (Same m (d.pass exchange p) ∨ Same (m.purged p) (d.pass exchange p)) := by
  refine ⟨(d.monitor exchange p).1, d.monitor_cases exchange p, ?_⟩
  unfold pass
  rcases d.monitor exchange p with ⟨m, - | exc⟩
  · have hnote := same_note (m.purge p).1 (m.purge p).2
    exact (m.purge_cases p).imp (fun h => h.trans hnote) fun h => h.trans hnote
  · exact Or.inl (m.same_note _)

/-! ### A node with nothing to send -/

/-- No session was started and no request made, and nothing of the node but the outbox, the state
and the last error tells the two apart. -/
structure Idled (d d' : Daemon V W) : Prop where
  sessions : d'.sessions = d.sessions
  world : d'.world = d.world
  node : ∃ outbox state lastError,
    d'.node = { d.node with engine := { d.node.engine with outbox, state, lastError } }
  rows : d'.node.engine.outbox.rows.Sublist d.node.engine.outbox.rows
  kept : ∀ r ∈ d.node.engine.outbox.rows, r ∉ d'.node.engine.outbox.rows → r.syncState = .synced

theorem idled_refl (d : Daemon V W) : Idled d d :=
  ⟨rfl, rfl, ⟨_, _, _, rfl⟩, List.Sublist.refl _, fun _ hr hnot => absurd hr hnot⟩

theorem Idled.trans {d d' d'' : Daemon V W} (h : Idled d d') (h' : Idled d' d'') :
    Idled d d'' := by
  refine ⟨h'.sessions.trans h.sessions, h'.world.trans h.world, ?_, h'.rows.trans h.rows,
    fun r hr hnot => ?_⟩
  · obtain ⟨outbox, state, lastError, hnode⟩ := h.node
    obtain ⟨outbox', state', lastError', hnode'⟩ := h'.node
    exact ⟨outbox', state', lastError', by rw [hnode', hnode]⟩
  · by_cases hmid : r ∈ d'.node.engine.outbox.rows
    · exact h'.kept r hmid hnot
    · exact h.kept r hr hmid

theorem Same.idled {d d' : Daemon V W} (h : Same d d') : Idled d d' := by
  have hrows : d'.node.engine.outbox.rows = d.node.engine.outbox.rows :=
    congrArg (fun n => n.engine.outbox.rows) h.node
  refine ⟨h.sessions, h.world,
    ⟨d'.node.engine.outbox, d'.node.engine.state, d'.node.engine.lastError, ?_⟩,
    hrows ▸ List.Sublist.refl _, fun r hr hnot => absurd (hrows ▸ hr) hnot⟩
  have hrestored : d'.node = { content d'.node with
      engine := { (content d'.node).engine with
        state := d'.node.engine.state, lastError := d'.node.engine.lastError } } := rfl
  rw [hrestored, h.node]
  rfl

theorem idled_purged (d : Daemon V W) (p : Pass) : Idled d (d.purged p) := by
  refine ⟨rfl, rfl, ⟨_, _, _, rfl⟩, OutboxQueue.rows_purgeSynced_sublist _ _ _,
    fun r hr hnot => ?_⟩
  have hgone := mt OutboxQueue.mem_purgeSynced.2 hnot
  by_contra hstate
  exact hgone ⟨hr, fun hsynced => hstate hsynced.1⟩

theorem idled_pass (d : Daemon V W) (p : Pass)
    (hidle : d.node.engine.outbox.pendingCount = 0) : Idled d (d.pass exchange p) := by
  obtain ⟨m, hm, hpass⟩ := d.pass_cases exchange p
  have hsame : Same d m := by
    rcases hm with h | ⟨-, hpending, -⟩
    · exact h
    · omega
  rcases hpass with h | h
  · exact (hsame.trans h).idled
  · exact (hsame.idled.trans (m.idled_purged p)).trans h.idled

theorem Idled.pendingCount {d d' : Daemon V W} (h : Idled d d')
    (hidle : d.node.engine.outbox.pendingCount = 0) : d'.node.engine.outbox.pendingCount = 0 := by
  rw [OutboxQueue.pendingCount_eq_zero] at hidle ⊢
  exact fun r hr => hidle r (h.rows.subset hr)

/-- However many passes the worker makes over a node with nothing to send, whatever the links
offer and whatever the peers would answer: no session starts, so the world beyond the transports
is left alone and nothing is received. The records, the clocks and the history stay; of the
outbox, synced rows may be purged. -/
theorem idle_worker_pulls_nothing (d : Daemon V W) (passes : List Pass)
    (hidle : d.node.engine.outbox.pendingCount = 0) :
    Idled d (replay (step exchange) d (passes.map .pass)) := by
  induction passes generalizing d with
  | nil => exact idled_refl d
  | cons p rest ih =>
    have hone := d.idled_pass exchange p hidle
    exact hone.trans (ih (d.pass exchange p) (hone.pendingCount hidle))

/-- A server behind the transports. -/
def sampleExchange (req : SyncPushRequest ℕ) (srv : Server ℕ) : Exchange ℕ × Server ℕ :=
  match srv.handleSyncRequest noFaults 7 req with
  | (srv, resp) => (.response resp, srv)

def sampleWrite (recordId opId : String) (now : ℚ) : DaemonEvent ℕ :=
  .call
    { opType := .create, collection := "incidents", recordId, opId, now, enqueuedAt := now
      data := (∅ : Dict String ℕ).insert "z" 1 }

/-- Two writes and the session that has them acknowledged. -/
def sampleDaemon : Daemon ℕ (Server ℕ) :=
  replay (step sampleExchange) (create "z" {} (Server.create "hq") 2592000 0)
    [sampleWrite "p" "u" 1, sampleWrite "q" "v" 2, .sync "s" (some 128001) 7 noFaults]

def samplePass (checkedAt : ℚ) : Pass where
  active := .ok true
  sessionId := "t"
  link := some 128001
  now := checkedAt
  faults := noFaults
  checkedAt
  purgedAt := checkedAt
  notedAt := checkedAt

/-- The server has taken an update that a session would pull. The first pass purges nothing, the
second both rows. -/
theorem idle_worker_pulls_nothing_example :
    let srv := (sampleDaemon.world.pushOne none (ConflictResolver.sampleUpdate "b" 5)).1
    let d := { sampleDaemon with world := srv }
    let d₁ := replay (step sampleExchange) d ([samplePass 3601].map .pass)
    let d₂ := replay (step sampleExchange) d ([samplePass 3601, samplePass 2595608].map .pass)
    Idled d d₂ ∧ d.sessions = ["s"] ∧ d.node.engine.localStore.count "incidents" ∅ = 2 ∧
      (srv.handleSyncRequest noFaults 8
        (d.node.engine.beginSync "t" 128001).2.2).2.operationCount = 1 ∧
      d₁.node.engine.outbox.rows.map Operation.opId = ["u", "v"] ∧
      d₂.node.engine.outbox.rows = [] :=
  ⟨idle_worker_pulls_nothing _ _ _ (by decide +kernel), by decide +kernel, by decide +kernel,
    by decide +kernel, by decide +kernel, by decide +kernel⟩

/-! ### What a purge may delete -/

/-- What the node has issued and was not told is acknowledged waits in the outbox or has failed. -/
structure Retained (node : Node V) : Prop where
  rows : ∀ op ∈ node.ops, op.opId ∈ node.acked ∨
    ∃ r ∈ node.engine.outbox.rows, r.asCreated = op
  synced : ∀ r ∈ node.engine.outbox.rows, r.syncState = .synced → r.opId ∈ node.acked
  states : ∀ r ∈ node.engine.outbox.rows, r.syncState ≠ .conflicted

theorem Retained.of_content {node node' : Node V} (h : Retained node)
    (hsame : content node' = content node) : Retained node' := by
  have hops : node'.ops = node.ops := congrArg (fun n => n.ops) hsame
  have hacked : node'.acked = node.acked := congrArg (fun n => n.acked) hsame
  have hrows : node'.engine.outbox.rows = node.engine.outbox.rows :=
    congrArg (fun n => n.engine.outbox.rows) hsame
  constructor
  · rw [hops, hacked, hrows]
    exact h.rows
  · rw [hacked, hrows]
    exact h.synced
  · rw [hrows]
    exact h.states

theorem retained_create (nodeId : String) (config : EngineConfig) :
    Retained (Node.create nodeId config : Node V) := by
  constructor
  · intro op hop
    cases hop
  · intro r hr
    cases hr
  · intro r hr
    cases hr

theorem Retained.call {node : Node V} (h : Retained node) (c : LocalCall V) :
    Retained (node.call c) := by
  rcases node.call_cases c with ⟨hissued, hrows⟩ | ⟨hissued, hrows, -⟩
  · have hops : (node.call c).ops = node.ops ++ [node.engine.stamped c] := by
      rw [Node.ops, hissued, List.map_append]
      rfl
    constructor
    · intro op hop
      rw [hops, List.mem_append, List.mem_singleton] at hop
      rw [Node.call_acked, hrows]
      rcases hop with hold | rfl
      · refine (h.rows op hold).imp_right fun hrow => ?_
        obtain ⟨r, hr, hcreated⟩ := hrow
        exact ⟨r, List.mem_append_left _ hr, hcreated⟩
      · exact Or.inr ⟨_, List.mem_append_right _ (List.mem_singleton_self _), rfl⟩
    · intro r hr hsynced
      rw [hrows, List.mem_append, List.mem_singleton] at hr
      rw [Node.call_acked]
      rcases hr with hold | rfl
      · exact h.synced r hold hsynced
      · cases hsynced
    · intro r hr
      rw [hrows, List.mem_append, List.mem_singleton] at hr
      rcases hr with hold | rfl
      · exact h.states r hold
      · exact SyncState.noConfusion
  · have hops : (node.call c).ops = node.ops := by rw [Node.ops, hissued, Node.ops]
    constructor
    · rw [hops, Node.call_acked, hrows]
      exact h.rows
    · rw [Node.call_acked, hrows]
      exact h.synced
    · rw [hrows]
      exact h.states

/-- An `UPDATE` of the sync columns keeps what is retained, if what it sets to `synced` is
acknowledged. -/
theorem Retained.setWhere {node node' : Node V} (h : Retained node) {ids : List String}
    {f : Operation V → Operation V} {hf : ∀ op, (f op).opId = op.opId}
    (hcreated : ∀ op, (f op).asCreated = op.asCreated)
    (hstate : ∀ op, (f op).syncState = .failed ∨
      ((f op).syncState = .synced ∧ ∀ opId ∈ ids, opId ∈ node'.acked))
    (hops : node'.ops = node.ops) (hacked : node.acked ⊆ node'.acked)
    (hrows : node'.engine.outbox.rows = (node.engine.outbox.setWhere ids f hf).rows) :
    Retained node' := by
  constructor
  · intro op hop
    rw [hops] at hop
    refine (h.rows op hop).imp (fun hack => hacked hack) fun hrow => ?_
    obtain ⟨r, hr, rfl⟩ := hrow
    refine ⟨if r.opId ∈ ids then f r else r, ?_, ?_⟩
    · rw [hrows]
      exact OutboxQueue.mem_setWhere.2 ⟨r, hr, rfl⟩
    · split_ifs
      · exact hcreated r
      · rfl
  · intro r hr hsynced
    rw [hrows] at hr
    obtain ⟨r₀, hr₀, rfl⟩ := OutboxQueue.mem_setWhere.1 hr
    split_ifs at hsynced ⊢ with hmem
    · rcases hstate r₀ with hfailed | ⟨-, hall⟩
      · cases hfailed.symm.trans hsynced
      · rw [hf]
        exact hall _ hmem
    · exact hacked (h.synced r₀ hr₀ hsynced)
  · intro r hr
    rw [hrows] at hr
    obtain ⟨r₀, hr₀, rfl⟩ := OutboxQueue.mem_setWhere.1 hr
    split_ifs
    · rcases hstate r₀ with hfailed | ⟨hsynced, -⟩
      · rw [hfailed]
        exact SyncState.noConfusion
      · rw [hsynced]
        exact SyncState.noConfusion
    · exact h.states r₀ hr₀

theorem Retained.sync {node : Node V} (h : Retained node) (sessionId : String) (link : Option ℤ)
    (now : ℚ) (faults : ℕ → Option Fault) (x : Exchange V) :
    Retained (node.sync sessionId link now faults x) := by
  have hacked : node.acked ⊆ (node.sync sessionId link now faults x).acked :=
    List.subset_append_left _ _
  rcases node.engine.rows_syncNow sessionId link now faults x with
    ⟨_, error, -, -, hrows⟩ | ⟨bps, resp, hlink, hresp, hrows⟩ | ⟨-, hrows⟩
  · refine h.setWhere ?_ ?_ rfl hacked hrows
    · exact fun _ => rfl
    · exact fun _ => Or.inl rfl
  · refine h.setWhere ?_ ?_ rfl hacked hrows
    · exact fun _ => rfl
    refine fun _ => Or.inr ⟨rfl, fun opId hid => ?_⟩
    rw [hlink, node.acked_sync_of_accepted _ _ _ _ hresp]
    exact List.mem_append_right _ hid
  · constructor
    · intro op hop
      refine (h.rows op hop).imp (fun hack => hacked hack) fun hrow => ?_
      rwa [← hrows] at hrow
    · intro r hr hsynced
      exact hacked (h.synced r (hrows ▸ hr) hsynced)
    · intro r hr
      exact h.states r (hrows ▸ hr)

theorem Retained.purged {d : Daemon V W} (h : Retained d.node) (p : Pass) :
    Retained (d.purged p).node := by
  have hsub : ∀ r ∈ (d.purged p).node.engine.outbox.rows, r ∈ d.node.engine.outbox.rows :=
    fun r hr => (OutboxQueue.mem_purgeSynced.1 hr).1
  refine ⟨fun op hop => ?_, fun r hr => h.synced r (hsub r hr), fun r hr => h.states r (hsub r hr)⟩
  by_cases hack : op.opId ∈ d.node.acked
  · exact Or.inl hack
  · obtain ⟨r, hr, rfl⟩ := (h.rows op hop).resolve_left hack
    refine Or.inr ⟨r, OutboxQueue.mem_purgeSynced.2 ⟨hr, fun hsynced => ?_⟩, rfl⟩
    exact hack (h.synced r hr hsynced.1)

theorem Retained.pass {d : Daemon V W} (h : Retained d.node) (p : Pass) :
    Retained (d.pass exchange p).node := by
  obtain ⟨m, hm, hpass⟩ := d.pass_cases exchange p
  have hmid : Retained m.node := by
    rcases hm with hsame | ⟨-, -, node₀, hsame, hnode | ⟨x, hnode⟩⟩
    · exact h.of_content hsame.node
    · exact hnode ▸ h.of_content hsame
    · exact hnode ▸ (h.of_content hsame).sync _ _ _ _ _
  rcases hpass with hsame | hsame
  · exact hmid.of_content hsame.node
  · exact (hmid.purged p).of_content hsame.node

/-- In every run of calls, sessions and passes with purges, whatever the links and the clocks do:
what the node has issued is acknowledged or still in its outbox, pending or failed. -/
theorem unacknowledged_never_purged (nodeId : String) (config : EngineConfig) (world : W)
    (older now : ℚ) (evs : List (DaemonEvent V)) :
    let node := (replay (step exchange) (create nodeId config world older now) evs).node
    ∀ op ∈ node.ops, op.opId ∉ node.acked →
      ∃ r ∈ node.engine.outbox.rows, r.asCreated = op ∧
        (r.syncState = .pending ∨ r.syncState = .failed) := by
  have hall : Retained
      (replay (step exchange) (create nodeId config world older now) evs).node := by
    refine replay_invariant (P := fun d : Daemon V W => Retained d.node) ?_ ?_ evs
    · exact retained_create nodeId config
    · intro d ev h
      cases ev with
      | call c => exact h.call c
      | sync sessionId link now faults =>
        obtain ⟨x, hnode⟩ := d.node_syncNow exchange sessionId link now faults
        exact hnode ▸ h.sync sessionId link now faults x
      | pass p => exact h.pass exchange p
      | start now => exact h
  intro node op hop hack
  obtain ⟨r, hr, hcreated⟩ := (hall.rows op hop).resolve_left hack
  refine ⟨r, hr, hcreated, ?_⟩
  have hid : r.opId = op.opId := by rw [← hcreated, Operation.opId_asCreated]
  cases hstate : r.syncState with
  | pending => exact Or.inl rfl
  | failed => exact Or.inr rfl
  | synced => exact absurd (hid ▸ hall.synced r hr hstate) hack
  | conflicted => exact absurd hstate (hall.states r hr)

end Daemon
end Dhava
