import Dhava.Proofs.Provenance

/-! Who wrote what is stored. In every replica of a run each row names an operation that its
author issued on that record, and each field of it was set by an operation on that record. -/

namespace Dhava

open Foundations

variable {V : Type}

/-- What holds of the rows of a store, and of a row an operation writes on top of such a row,
holds of the rows after a list of operations. -/
theorem ConflictResolver.forall_get_foldl_process (self : ConflictResolver)
    {P : Key → Record V → Prop} {ops : List (Operation V)}
    (hops : ∀ op ∈ ops, ∀ existing : Option (Record V), (∀ r, existing = some r → P op.key r) →
      P op.key (LocalStore.written existing op))
    {s : LocalStore V} (hs : ∀ key r, s.get key true = some r → P key r) :
    ∀ key r, (ops.foldl self.process s).get key true = some r → P key r := by
  induction ops generalizing s with
  | nil => exact hs
  | cons op rest ih =>
    rw [List.forall_mem_cons] at hops
    refine ih hops.2 fun key r hr => ?_
    rw [get_process] at hr
    split_ifs at hr with hkey
    · subst hkey
      unfold settle at hr
      split_ifs at hr
      · obtain rfl := Option.some.inj hr
        exact hops.1 _ fun r' hr' => hs op.key r' hr'
      · exact hs op.key r hr
    · exact hs key r hr

section Issued

/-- Each field was set to its value by an operation that somebody issued on the record. -/
def Sourced (issued : String → Set (Operation V)) (key : Key) (data : Dict String V) : Prop :=
  ∀ f v, data.lookup f = some v →
    ∃ m, ∃ op ∈ issued m, op.key = key ∧ op.payload.lookup f = some v

/-- The author of a row issued an operation on the record with this clock and this time, a
delete exactly if the row is a tombstone. -/
structure Attributed (issued : String → Set (Operation V)) (key : Key) (r : Record V) : Prop where
  author : ∃ op ∈ issued r.lastModifiedBy, op.key = key ∧ op.vectorClock = r.vectorClock ∧
    op.timestamp = r.lastModified ∧ (op.opType = .delete ↔ r.deleted = true)
  data : Sourced issued key r.data
  deletedAt : r.deletedAt = if r.deleted then some r.lastModified else none

/-- An operation in transit that stands for an issued one. -/
structure Accountable (issued : String → Set (Operation V)) (op : Operation V) : Prop where
  author : ∃ o ∈ issued op.nodeId, o.key = op.key ∧ o.vectorClock = op.vectorClock ∧
    o.timestamp = op.timestamp ∧ (o.opType = .delete ↔ op.opType = .delete)
  payload : Sourced issued op.key op.payload

variable {issued issued' : String → Set (Operation V)}

theorem Sourced.mono (hgrows : ∀ m, issued m ⊆ issued' m) {key : Key} {data : Dict String V}
    (h : Sourced issued key data) : Sourced issued' key data := by
  intro f v hv
  obtain ⟨m, op, hop, hop'⟩ := h f v hv
  exact ⟨m, op, hgrows m hop, hop'⟩

theorem Attributed.mono (hgrows : ∀ m, issued m ⊆ issued' m) {key : Key} {r : Record V}
    (h : Attributed issued key r) : Attributed issued' key r := by
  obtain ⟨op, hop, hop'⟩ := h.author
  exact ⟨⟨op, hgrows _ hop, hop'⟩, h.data.mono hgrows, h.deletedAt⟩

theorem sourced_empty (issued : String → Set (Operation V)) (key : Key) : Sourced issued key ∅ := by
  intro f v hv
  rw [Finmap.lookup_empty] at hv
  cases hv

theorem Sourced.update {key : Key} {d e : Dict String V} (hd : Sourced issued key d)
    (he : Sourced issued key e) : Sourced issued key (d.update e) := by
  intro f v hv
  rw [Dict.lookup_update] at hv
  cases hf : e.lookup f with
  | none =>
    rw [hf] at hv
    exact hd f v hv
  | some u =>
    rw [hf] at hv
    exact he f v (hf.trans hv)

/-- An accountable operation writes an attributed row on top of an attributed row. -/
theorem Accountable.written {op : Operation V} (h : Accountable issued op)
    {existing : Option (Record V)} (hex : ∀ r, existing = some r → Attributed issued op.key r) :
    Attributed issued op.key (LocalStore.written existing op) := by
  have hbase : Sourced issued op.key (LocalStore.baseData existing) := by
    cases existing with
    | none => exact sourced_empty issued op.key
    | some r => exact (hex r rfl).data
  obtain ⟨o, ho, hkey, hclock, hts, htype⟩ := h.author
  refine ⟨⟨o, ho, hkey, hclock, hts, ?_⟩, ?_, ?_⟩
  · rw [htype, LocalStore.deleted_written, decide_eq_true_eq]
  · rw [LocalStore.data_written]
    unfold LocalStore.writtenData
    cases op.opType with
    | create => exact h.payload
    | update => exact h.payload
    | merge => exact hbase.update h.payload
    | delete => exact hbase
  · simp only [LocalStore.deleted_written, decide_eq_true_eq]
    rfl

/-- Every row of the store is attributed. -/
def AttributedRows (issued : String → Set (Operation V)) (s : LocalStore V) : Prop :=
  ∀ key r, s.get key true = some r → Attributed issued key r

theorem AttributedRows.mono (hgrows : ∀ m, issued m ⊆ issued' m) {s : LocalStore V}
    (h : AttributedRows issued s) : AttributedRows issued' s :=
  fun key r hr => (h key r hr).mono hgrows

theorem AttributedRows.foldl_process (self : ConflictResolver) {ops : List (Operation V)}
    (hops : ∀ op ∈ ops, Accountable issued op) {s : LocalStore V} (hs : AttributedRows issued s) :
    AttributedRows issued (ops.foldl self.process s) :=
  self.forall_get_foldl_process (fun op hop _ hex => (hops op hop).written hex) hs

/-- What is issued is accountable, also from the outbox, where the sync columns may differ. -/
theorem accountable_of_issued {op : Operation V} (h : op.asCreated ∈ issued op.nodeId) :
    Accountable issued op :=
  ⟨⟨op.asCreated, h, rfl, rfl, rfl, Iff.rfl⟩, fun _ _ hv => ⟨_, op.asCreated, h, rfl, hv⟩⟩

/-- What the server sends of an attributed row is accountable. -/
theorem Attributed.snapshotOp {key : Key} {r : Record V} (h : Attributed issued key r)
    (hkey : r.key = key) (now : ℚ) : Accountable issued (Server.snapshotOp now r) := by
  subst hkey
  obtain ⟨op, hop, hk, hclock, hts, htype⟩ := h.author
  refine ⟨⟨op, hop, hk, hclock, hts, htype.trans ?_⟩, h.data⟩
  unfold Server.snapshotOp
  cases r.deleted <;> simp

end Issued

namespace World

def issuedBy (w : World V) (m : String) : Set (Operation V) := {op | op ∈ (w.nodes m).ops}

/-- Every row of every replica is attributed. -/
structure Accounted (w : World V) : Prop where
  provenance : w.Provenance
  server : AttributedRows w.issuedBy w.server.localStore
  nodes : ∀ n, AttributedRows w.issuedBy (w.nodes n).engine.localStore

theorem accounted_init (serverNodeId : String) (resolver : ConflictResolver)
    (serverConfig : ServerConfig) (config : String → EngineConfig) :
    (init serverNodeId resolver serverConfig config : World V).Accounted where
  provenance := provenance_init serverNodeId resolver serverConfig config
  server := by intro key r hr; cases hr
  nodes := by
    intro n key r hr
    have hnone : (Engine.create n (config n) : Engine V).localStore.get key true = none := rfl
    cases hnone.symm.trans hr

theorem accounted_call {w : World V} (h : w.Accounted) {n : String} {c : LocalCall V}
    (hc : w.Fresh (.call n c)) : (w.step (.call n c)).Accounted := by
  have hrows := (h.provenance.traced n).rows
  have hgrows : ∀ m, w.issuedBy m ⊆ (w.step (.call n c)).issuedBy m :=
    fun m op hop => mem_ops_call hrows hc hop
  refine ⟨provenance_call h.provenance hc, h.server.mono hgrows, fun m key r hr => ?_⟩
  by_cases hm : m = n
  · subst hm
    rw [w.call_self, Node.call_engine, ((w.nodes m).engine.call_wrote c).get] at hr
    split_ifs at hr with hkey
    · obtain rfl := Option.some.inj hr
      have hissued : ((w.nodes m).engine.stamped c).asCreated ∈
          (w.step (.call m c)).issuedBy ((w.nodes m).engine.stamped c).nodeId := by
        change _ ∈ ((w.step (.call m c)).nodes _).ops
        rw [Engine.asCreated_stamped, Engine.stamped_nodeId, h.provenance.nodeId m,
          ops_call hrows hc, if_pos rfl]
        exact List.mem_append_right _ (List.mem_singleton_self _)
      have hexisting : ∀ r, (w.nodes m).engine.localStore.get c.key true = some r →
          Attributed (w.step (.call m c)).issuedBy c.key r :=
        fun r hr => (h.nodes m c.key r hr).mono hgrows
      have hwritten := (accountable_of_issued hissued).written hexisting
      rw [Engine.stamped_key] at hwritten
      exact hkey ▸ hwritten
    · exact (h.nodes m key r hr).mono hgrows
  · rw [w.call_of_ne hm] at hr
    exact (h.nodes m key r hr).mono hgrows

theorem accounted_sync {w : World V} (h : w.Accounted) (n sessionId : String) (link : Option ℤ)
    (now : ℚ) (serverNow : Readings) : (w.sync n sessionId link now serverNow).Accounted := by
  set w' := w.sync n sessionId link now serverNow with hw'
  have hgrows : ∀ m, w.issuedBy m ⊆ w'.issuedBy m :=
    fun m => (congrArg (fun ops => {op | op ∈ ops}) (ops_sync sessionId link now serverNow m)).ge
  -- the other nodes keep their rows
  have hassemble : AttributedRows w'.issuedBy w'.server.localStore →
      AttributedRows w'.issuedBy (w'.nodes n).engine.localStore → w'.Accounted := by
    intro hserver hnode
    refine ⟨provenance_sync h.provenance sessionId link now serverNow, hserver, fun m => ?_⟩
    by_cases hm : m = n
    · exact hm ▸ hnode
    · have hsame : w'.nodes m = w.nodes m := w.sync_of_ne hm sessionId link now serverNow
      rw [hsame]
      exact (h.nodes m).mono hgrows
  cases link with
  | none =>
    refine hassemble (h.server.mono hgrows) ?_
    rw [hw', w.sync_none_self]
    exact (h.nodes n).mono hgrows
  | some bandwidthBps =>
    rcases w.sync_cases n sessionId bandwidthBps now serverNow with href | hsync
    · refine hassemble ?_ ?_
      · rw [hw', href.server]
        exact h.server.mono hgrows
      · rw [hw', href.localStore]
        exact (h.nodes n).mono hgrows
    · have hserver : AttributedRows w'.issuedBy w'.server.localStore := by
        rw [hw', hsync.server]
        refine (h.server.mono hgrows).foldl_process _ fun op hop => accountable_of_issued ?_
        obtain ⟨hissued, hnode⟩ := h.provenance.batch hop
        rw [hnode]
        exact hgrows n hissued
      refine hassemble hserver ?_
      rw [hw', hsync.localStore]
      refine ((h.nodes n).mono hgrows).foldl_process _ fun op hop => ?_
      obtain ⟨r, hr, -, rfl⟩ := Server.mem_getOperationsForPeer hop
      exact (hserver _ r hr).snapshotOp rfl serverNow.enqueued

theorem accounted_step {w : World V} (h : w.Accounted) (ev : WorldEvent V) (hev : w.Fresh ev) :
    (w.step ev).Accounted := by
  cases ev with
  | call n c => exact accounted_call h hev
  | sync n sessionId link now serverNow => exact accounted_sync h n sessionId link now serverNow
  | register now nodeId => exact ⟨provenance_step h.provenance _ hev, h.server, h.nodes⟩

/-- In every run, every row of the server and of every node is attributed. -/
theorem rows_attributed (serverNodeId : String) (resolver : ConflictResolver)
    (serverConfig : ServerConfig) (config : String → EngineConfig) (evs : List (WorldEvent V))
    (hevs : Admitted step Fresh (init serverNodeId resolver serverConfig config) evs) :
    let w := replay step (init serverNodeId resolver serverConfig config) evs
    ∀ key r, (w.server.localStore.get key true = some r ∨
      ∃ n, (w.nodes n).engine.localStore.get key true = some r) → Attributed w.issuedBy key r := by
  intro w key r hr
  have h : w.Accounted := hevs.invariant (accounted_init serverNodeId resolver serverConfig config)
    fun w ev hw hev => accounted_step hw ev hev
  rcases hr with hr | ⟨n, hr⟩
  · exact h.server key r hr
  · exact h.nodes n key r hr

/-- Node `a` writes a record and merges into it, the server relays it to `b`. -/
def relayed : List (WorldEvent ℕ) :=
  [sampleWrite .create "title" .p2 "1" 0, sampleWrite .merge "note" .p1 "2" 1,
    .sync "a" "s" (some 2000000) 2 2, .sync "b" "t" (some 2000000) 3 3]

theorem rows_attributed_example :
    let w := replay step (init "hq" { nodeId := "hq" } {} fun _ => {}) relayed
    ∀ key r, (w.server.localStore.get key true = some r ∨
      ∃ n, (w.nodes n).engine.localStore.get key true = some r) → Attributed w.issuedBy key r :=
  rows_attributed "hq" { nodeId := "hq" } {} (fun _ => {}) relayed (by decide +kernel)

end World
end Dhava
