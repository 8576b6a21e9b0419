import Dhava.Proofs.Provenance

/-! Does a clock determine the content? A live row of any store shows the clock of an issued
operation. It also shows the data the writer had, unless a merge reached the server on top
of something else than the writer had under it. -/

namespace Dhava

open Foundations

variable {V : Type}

namespace World

/-- The stores of the system. -/
def IsStore (w : World V) (s : LocalStore V) : Prop :=
  s = w.server.localStore ∨ ∃ n, s = (w.nodes n).engine.localStore

/-- Two stores never hold live records with equal clocks and different data. -/
def ClockContent (w : World V) : Prop :=
  ∀ s s', w.IsStore s → w.IsStore s' → ∀ key r r', s.get key = some r → s'.get key = some r' →
    (VectorClock.ofDict r.vectorClock).compare (VectorClock.ofDict r'.vectorClock).clocks = .equal →
    r.data = r'.data

/-- No earlier operation on the record, of whatever node, carries the clock this call gets
and left a live record with other data. -/
def ClockIsNew (w : World V) (n : String) (c : LocalCall V) : Prop :=
  ∀ m, ∀ p ∈ (w.nodes m).issued, p.1.key = c.key → p.2.deleted = false →
    VectorClock.ofDict p.1.vectorClock =
      ((w.nodes n).engine.storedClock c.key).increment (w.nodes n).engine.nodeId →
    p.2.data = ((w.nodes n).issue c).2.data

/-- A merge fits a row where the row agrees with what the writer's call returned on all the
fields the merge does not set. -/
def MergeFits (w : World V) (n : String) (row : Option (Record V)) (op : Operation V) : Prop :=
  ∀ rec, (op.asCreated, rec) ∈ (w.nodes n).issued →
    ∀ field, field ∉ op.payload → (LocalStore.baseData row).lookup field = rec.data.lookup field

/-- A local write gets a new clock, and every merge a sync applies at the server finds a row
it fits. -/
def KeepsContent (w : World V) : WorldEvent V → Prop
  | .call n c => c.opType ≠ .delete → w.ClockIsNew n c
  | .sync n _ (some bandwidthBps) _ _ =>
    w.server.refuses (w.nodes n).engine.nodeId = false →
    ∀ pre op post, (w.nodes n).engine.pendingBatch bandwidthBps = pre ++ op :: post →
      op.opType = .merge →
      let row := (pre.foldl w.server.conflictResolver.process w.server.localStore).get op.key true
      w.server.conflictResolver.accepts row op = true → w.MergeFits n row op
  | _ => True

/-- The live rows of a store show the clock and the data of an issued operation. -/
def Backed (w : World V) (s : LocalStore V) : Prop :=
  ∀ key r, s.get key true = some r → r.deleted = false →
    ∃ m, ∃ p ∈ (w.nodes m).issued, p.1.key = key ∧ p.2.deleted = false ∧
      VectorClock.ofDict p.1.vectorClock = VectorClock.ofDict r.vectorClock ∧ p.2.data = r.data

/-- Every store is backed, and issued operations with one clock left one content. -/
structure Content (w : World V) : Prop where
  server : w.Backed w.server.localStore
  nodes : ∀ n, w.Backed (w.nodes n).engine.localStore
  unique : ∀ m, ∀ p ∈ (w.nodes m).issued, ∀ m', ∀ p' ∈ (w.nodes m').issued,
    p.2.deleted = false → p'.2.deleted = false → p.1.key = p'.1.key →
    VectorClock.ofDict p.1.vectorClock = VectorClock.ofDict p'.1.vectorClock → p.2.data = p'.2.data

theorem Content.clockContent {w : World V} (h : w.Content) : w.ClockContent := by
  have hall : ∀ s, w.IsStore s → w.Backed s := by
    rintro s (rfl | ⟨n, rfl⟩)
    · exact h.server
    · exact h.nodes n
  intro s s' hs hs' key r r' hr hr' heq
  obtain ⟨hget, hlive⟩ := (s.get_eq_some_iff key r).1 hr
  obtain ⟨hget', hlive'⟩ := (s'.get_eq_some_iff key r').1 hr'
  obtain ⟨m, p, hp, hk, hl, hc, hd⟩ := hall s hs key r hget hlive
  obtain ⟨m', p', hp', hk', hl', hc', hd'⟩ := hall s' hs' key r' hget' hlive'
  rw [← hd, ← hd']
  refine h.unique m p hp m' p' hp' hl hl' (hk.trans hk'.symm) ?_
  rw [hc, hc', VectorClock.compare_equal.1 heq]

theorem content_init (serverNodeId : String) (resolver : ConflictResolver)
    (serverConfig : ServerConfig) (config : String → EngineConfig) :
    (init serverNodeId resolver serverConfig config : World V).Content where
  server := by intro key r hr; cases hr
  nodes := by intro n key r hr; cases hr
  unique := by intro m p hp; cases hp

/-- Backing survives when the histories grow. -/
theorem Backed.mono {w w' : World V} {s : LocalStore V} (h : w.Backed s)
    (hsub : ∀ m, (w.nodes m).issued ⊆ (w'.nodes m).issued) : w'.Backed s := by
  intro key r hr hlive
  obtain ⟨m, p, hp, hrest⟩ := h key r hr hlive
  exact ⟨m, p, hsub m hp, hrest⟩

/-! ### Local writes -/

section Call

variable {w : World V} {n : String} {c : LocalCall V}

/-- With a new clock on the new operation, issued operations with one clock still left one
content. -/
theorem unique_call (h : w.Content) (hrows : (w.nodes n).RowsIssued) (hc : w.Fresh (.call n c))
    (hkeep : w.KeepsContent (.call n c)) (m : String) (p : Operation V × Record V)
    (hpm : p ∈ ((w.step (.call n c)).nodes m).issued) (m' : String) (p' : Operation V × Record V)
    (hpm' : p' ∈ ((w.step (.call n c)).nodes m').issued) (hl : p.2.deleted = false)
    (hl' : p'.2.deleted = false) (hk : p.1.key = p'.1.key)
    (hvc : VectorClock.ofDict p.1.vectorClock = VectorClock.ofDict p'.1.vectorClock) :
    p.2.data = p'.2.data := by
  have hclock : VectorClock.ofDict ((w.nodes n).issue c).1.vectorClock =
      ((w.nodes n).engine.storedClock c.key).increment (w.nodes n).engine.nodeId :=
    VectorClock.ofDict_clocks _
  have hlive : ((w.nodes n).issue c).2.deleted = false → c.opType ≠ .delete := of_decide_eq_false
  have hcases : ∀ {m p}, p ∈ ((w.step (.call n c)).nodes m).issued →
      p ∈ (w.nodes m).issued ∨ p = (w.nodes n).issue c := by
    intro m p hpm
    rw [issued_call hrows hc, List.mem_append] at hpm
    rcases hpm with hold | hlast
    · exact Or.inl hold
    · split_ifs at hlast
      · exact Or.inr (List.mem_singleton.1 hlast)
      · cases hlast
  rcases hcases hpm with hold | rfl
  · rcases hcases hpm' with hold' | rfl
    · exact h.unique m p hold m' p' hold' hl hl' hk hvc
    · exact hkeep (hlive hl') m p hold hk hl (hvc.trans hclock)
  · rcases hcases hpm' with hold' | rfl
    · exact (hkeep (hlive hl) m' p' hold' hk.symm hl' (hvc.symm.trans hclock)).symm
    · rfl

theorem content_call (hp : w.Provenance) (h : w.Content) (hc : w.Fresh (.call n c))
    (hkeep : w.KeepsContent (.call n c)) : (w.step (.call n c)).Content := by
  have hrows := (hp.traced n).rows
  have hsub : ∀ m, (w.nodes m).issued ⊆ ((w.step (.call n c)).nodes m).issued := by
    intro m
    rw [issued_call hrows hc]
    exact List.subset_append_left _ _
  have hnew : (w.nodes n).issue c ∈ ((w.step (.call n c)).nodes n).issued := by
    rw [issued_call hrows hc, if_pos rfl]
    simp
  refine ⟨h.server.mono hsub, ?_, unique_call h hrows hc hkeep⟩
  intro m
  by_cases hm : m = n
  · subst hm
    intro key r hr hrlive
    rw [w.call_self, Node.call_engine, ((w.nodes m).engine.call_wrote c).get] at hr
    split_ifs at hr with hk
    · obtain rfl := Option.some.inj hr
      exact ⟨m, _, hnew, hk.symm, hrlive, rfl, rfl⟩
    · exact (h.nodes m).mono hsub key r hr hrlive
  · rw [w.call_of_ne hm]
    exact (h.nodes m).mono hsub

end Call

/-! ### Syncs -/

section Sync

variable {w : World V} {n : String}

/-- One operation of a batch: where it is applied and fits, the row shows what the writer had. -/
theorem backed_process (hp : w.Provenance) {bandwidthBps : ℤ} {s : LocalStore V} (h : w.Backed s)
    (res : ConflictResolver) {op : Operation V}
    (hop : op ∈ (w.nodes n).engine.pendingBatch bandwidthBps)
    (hfits : op.opType = .merge → res.accepts (s.get op.key true) op = true →
      w.MergeFits n (s.get op.key true) op) : w.Backed (res.process s op) := by
  intro key r hr hlive
  rw [ConflictResolver.get_process] at hr
  split_ifs at hr with hk
  · unfold ConflictResolver.settle at hr
    split_ifs at hr with hacc
    · obtain ⟨rec, hrec⟩ := Node.mem_ops.1 (hp.batch hop).1
      obtain ⟨existing, hex⟩ : ∃ existing, rec = LocalStore.written existing op.asCreated :=
        (hp.traced n).returned _ hrec
      obtain rfl := Option.some.inj hr
      have hdel : op.opType ≠ .delete := of_decide_eq_false hlive
      refine ⟨n, (op.asCreated, rec), hrec, hk.symm, ?_, rfl, ?_⟩
      · rw [hex]
        exact decide_eq_false hdel
      · have hwritten : rec.data = LocalStore.writtenData existing op := by
          rw [hex]
          rfl
        have hdata : ∀ row, (LocalStore.written row op).data = LocalStore.writtenData row op :=
          fun _ => rfl
        simp only [hdata, hwritten]
        cases ht : op.opType with
        | create => simp [LocalStore.writtenData, ht]
        | update => simp [LocalStore.writtenData, ht]
        | delete => exact absurd ht hdel
        | merge =>
          have hfit := hfits ht hacc rec hrec
          simp only [hwritten, LocalStore.writtenData, ht] at hfit ⊢
          rw [eq_comm, Dict.update_eq_update_iff]
          intro field hfield
          rw [hfit field hfield, Dict.lookup_update, Finmap.lookup_eq_none.2 hfield, Option.none_or]
    · exact h key r (hk ▸ hr) hlive
  · exact h key r hr hlive

/-- The whole batch, operation by operation. -/
theorem backed_batch (hp : w.Provenance) {bandwidthBps : ℤ} (res : ConflictResolver)
    {s : LocalStore V} (h : w.Backed s) (ops : List (Operation V))
    (hops : ∀ op ∈ ops, op ∈ (w.nodes n).engine.pendingBatch bandwidthBps)
    (hfits : ∀ pre op post, ops = pre ++ op :: post → op.opType = .merge →
      res.accepts ((pre.foldl res.process s).get op.key true) op = true →
      w.MergeFits n ((pre.foldl res.process s).get op.key true) op) :
    w.Backed (ops.foldl res.process s) := by
  induction ops using List.reverseRecOn with
  | nil => exact h
  | append_singleton l op ih =>
    rw [List.foldl_append, List.foldl_cons, List.foldl_nil]
    have hl : w.Backed (l.foldl res.process s) := by
      apply ih fun o ho => hops o (List.mem_append_left _ ho)
      intro pre o post he
      exact hfits pre o (post ++ [op]) (by rw [he, List.append_assoc, List.cons_append])
    exact backed_process hp hl res (hops op (by simp)) (hfits l op [] rfl)

/-- Pulling snapshots of backed rows keeps a store backed. -/
theorem backed_delta {srv : Server V} (hsrv : w.Backed srv.localStore) {s : LocalStore V}
    (h : w.Backed s) (res : ConflictResolver) (serverNow : ℚ) (vc : VectorClock) (peer : String) :
    w.Backed ((srv.getOperationsForPeer serverNow vc peer).foldl res.process s) := by
  intro key r hr hlive
  rcases res.get_foldl_process_cases _ _ hr with hold | ⟨op, hop, hk, existing, rfl⟩
  · exact h key r hold hlive
  · obtain ⟨row, hrow, -, rfl⟩ := Server.mem_getOperationsForPeer hop
    rw [LocalStore.deleted_written] at hlive
    have hup : row.deleted = false := by
      by_contra hdel
      simp [Server.snapshotOp, hdel] at hlive
    obtain ⟨m, p, hp, hpk, hpl, hpc, hpd⟩ := hsrv _ row hrow hup
    refine ⟨m, p, hp, hpk.trans hk, hpl, hpc, hpd.trans ?_⟩
    simp [LocalStore.writtenData, Server.snapshotOp, hup]

theorem content_sync (hp : w.Provenance) (h : w.Content) (sessionId : String) (link : Option ℤ)
    (now : ℚ) (serverNow : Readings) (hkeep : w.KeepsContent (.sync n sessionId link now serverNow)) :
    (w.sync n sessionId link now serverNow).Content := by
  have hissued := w.issued_sync n sessionId link now serverNow
  have hmono : ∀ {s}, w.Backed s → (w.sync n sessionId link now serverNow).Backed s :=
    fun hs => hs.mono fun m => (hissued m).symm ▸ List.Subset.refl _
  have hunique : ∀ m, ∀ p ∈ ((w.sync n sessionId link now serverNow).nodes m).issued,
      ∀ m', ∀ p' ∈ ((w.sync n sessionId link now serverNow).nodes m').issued,
      p.2.deleted = false → p'.2.deleted = false → p.1.key = p'.1.key →
      VectorClock.ofDict p.1.vectorClock = VectorClock.ofDict p'.1.vectorClock →
      p.2.data = p'.2.data := by
    intro m p hpm m' p' hpm'
    rw [hissued] at hpm hpm'
    exact h.unique m p hpm m' p' hpm'
  cases link with
  | none =>
    refine ⟨hmono h.server, fun m => hmono ?_, hunique⟩
    by_cases hm : m = n
    · subst hm
      rw [w.sync_none_self]
      exact h.nodes m
    · rw [w.sync_of_ne hm]
      exact h.nodes m
  | some bandwidthBps =>
    rcases w.sync_cases n sessionId bandwidthBps now serverNow with href | hsync
    · refine ⟨hmono (href.server.symm ▸ h.server), fun m => hmono ?_, hunique⟩
      by_cases hm : m = n
      · subst hm
        rw [href.localStore]
        exact h.nodes m
      · rw [w.sync_of_ne hm]
        exact h.nodes m
    · have hserver : w.Backed
          (w.sync n sessionId (some bandwidthBps) now serverNow).server.localStore := by
        rw [hsync.server]
        exact backed_batch hp _ h.server _ (fun op hop => hop) (hkeep hsync.admitted)
      refine ⟨hmono hserver, fun m => hmono ?_, hunique⟩
      by_cases hm : m = n
      · subst hm
        rw [hsync.localStore]
        exact backed_delta hserver (h.nodes m) _ _ _ _
      · rw [w.sync_of_ne hm]
        exact h.nodes m

end Sync

theorem content_step {w : World V} (hp : w.Provenance) (h : w.Content) (ev : WorldEvent V)
    (hev : w.Fresh ev) (hkeep : w.KeepsContent ev) : (w.step ev).Content := by
  cases ev with
  | call n c => exact content_call hp h hev hkeep
  | sync n sessionId link now serverNow => exact content_sync hp h sessionId link now serverNow hkeep
  | register now nodeId => exact { h with }

/-- In every run in which local writes get new clocks and applied merges fit, equal clocks
mean equal data across all stores. -/
theorem always_clockContent (serverNodeId : String) (resolver : ConflictResolver)
    (serverConfig : ServerConfig) (config : String → EngineConfig) (evs : List (WorldEvent V))
    (h : Admitted step (fun w ev => w.Fresh ev ∧ w.KeepsContent ev)
      (init serverNodeId resolver serverConfig config) evs) :
    (replay step (init serverNodeId resolver serverConfig config) evs).ClockContent := by
  have hinv := h.invariant (P := fun w => w.Provenance ∧ w.Content)
    ⟨provenance_init serverNodeId resolver serverConfig config,
      content_init serverNodeId resolver serverConfig config⟩
    fun w ev hw hev => ⟨provenance_step hw.1 ev hev.1, content_step hw.1 hw.2 ev hev.1 hev.2⟩
  exact hinv.2.clockContent

theorem mergeFits_iff (w : World V) (n : String) (row : Option (Record V)) (op : Operation V) :
    w.MergeFits n row op ↔ ∀ p ∈ (w.nodes n).issued, p.1 = op.asCreated →
      Dict.update (LocalStore.baseData row) op.payload = Dict.update p.2.data op.payload := by
  unfold MergeFits
  constructor
  · rintro h ⟨_, rec⟩ hp rfl
    exact (Dict.update_eq_update_iff _ _ _).2 (h rec hp)
  · intro h rec hrec
    exact (Dict.update_eq_update_iff _ _ _).1 (h _ hrec rfl)

instance [DecidableEq V] (w : World V) (n : String) (row : Option (Record V)) (op : Operation V) :
    Decidable (w.MergeFits n row op) :=
  decidable_of_iff _ (w.mergeFits_iff n row op).symm

/-- For a sync it is a condition on the run of its batch through the push loop. -/
theorem keepsContent_sync_iff (w : World V) (n sessionId : String) (bandwidthBps : ℤ) (now : ℚ)
    (serverNow : Readings) :
    w.KeepsContent (.sync n sessionId (some bandwidthBps) now serverNow) ↔
      (w.server.refuses (w.nodes n).engine.nodeId = false →
        Admitted w.server.conflictResolver.process
          (fun s op => op.opType = .merge →
            w.server.conflictResolver.accepts (s.get op.key true) op = true →
            w.MergeFits n (s.get op.key true) op)
          w.server.localStore ((w.nodes n).engine.pendingBatch bandwidthBps)) := by
  rw [admitted_iff_split]
  rfl

/-- A create and a merge over it go to the server in one batch, and on to another node. -/
theorem always_clockContent_example :
    (replay step (init "hq" { nodeId := "hq" } {} fun _ => {})
      [sampleWrite .create "x" .p2 "u" 0, sampleWrite .merge "y" .p2 "v" 1,
        .sync "a" "1" (some 2000000) 2 2, .sync "b" "2" (some 2000000) 3 3]).ClockContent := by
  refine always_clockContent "hq" { nodeId := "hq" } {} (fun _ => {}) _
    ⟨⟨by decide +kernel, fun _ m p hp => by cases hp⟩, ⟨by decide +kernel, fun _ m => ?_⟩,
      ⟨trivial, (keepsContent_sync_iff ..).2 (by decide +kernel)⟩,
      ⟨trivial, (keepsContent_sync_iff ..).2 (by decide +kernel)⟩, trivial⟩
  by_cases hm : m = "a"
  · rw [hm]
    decide +kernel
  · intro p hp
    rw [sampleWrite, call_of_ne _ hm] at hp
    cases hp

/-- A routine create and an urgent merge, over a narrow link: the merge reaches the server
alone, and both sides hold the clock `{a:2}` with different data. -/
def mergeAhead : World ℕ :=
  replay step (init "hq" { nodeId := "hq" } {} fun _ => {})
    [sampleWrite .create "x" .p2 "u" 0, sampleWrite .merge "y" .p0 "v" 1,
      .sync "a" "1" (some 9600) 2 2]

theorem mergeAhead_not_clockContent : ¬ mergeAhead.ClockContent := by
  intro h
  have hdiff : ∃ r ∈ mergeAhead.server.localStore.get ("incidents", "r"),
      ∃ r' ∈ (mergeAhead.nodes "a").engine.localStore.get ("incidents", "r"),
        (VectorClock.ofDict r.vectorClock).compare (VectorClock.ofDict r'.vectorClock).clocks =
          .equal ∧ r.data ≠ r'.data := by
    decide +kernel
  obtain ⟨r, hr, r', hr', heq, hne⟩ := hdiff
  exact hne (h _ _ (Or.inl rfl) (Or.inr ⟨"a", rfl⟩) _ r r' hr hr' heq)

end World
end Dhava
