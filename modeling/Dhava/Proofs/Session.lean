import Dhava.Spec.Node

/-! What a local call and a `sync_now` do to an engine, once for all uses: the parts that
never change, the row a call writes, the pull loop as an induction rule, and the outbox
rows after each of the exits. -/

namespace Dhava

open Foundations

variable {V : Type}

theorem Exchange.eq_of_accepted {x : Exchange V} {resp : SyncPullResponse V}
    (h : x.accepted = some resp) : x = .response resp ∧ resp.status ≠ "error" := by
  cases x with
  | response r =>
    simp only [accepted] at h
    split_ifs at h with hs
    obtain rfl := Option.some.inj h
    exact ⟨rfl, hs⟩
  | notSent exc => cases h
  | failed error => cases h
  | undecodable exc => cases h

namespace Engine

/-- What no step of a process changes. -/
def identity (e : Engine V) : String × EngineConfig × ConflictResolver :=
  (e.nodeId, e.config, e.conflictResolver)

theorem nodeId_of_identity {e e' : Engine V} (h : e'.identity = e.identity) :
    e'.nodeId = e.nodeId := congrArg Prod.fst h

theorem resolver_of_identity {e e' : Engine V} (h : e'.identity = e.identity) :
    e'.conflictResolver = e.conflictResolver := congrArg (fun i => i.2.2) h

/-- Only pending rows are sent. -/
theorem pending_of_sent {e : Engine V} {bandwidthBps : ℤ} {r : Operation V}
    (hr : r ∈ e.outbox.rows) (hid : r.opId ∈ (e.pendingBatch bandwidthBps).map Operation.opId) :
    r.syncState = .pending := by
  obtain ⟨sent, hsent, hid⟩ := List.mem_map.1 hid
  obtain ⟨hrow, hselected⟩ := OutboxQueue.mem_getPending hsent
  rw [← OutboxQueue.eq_of_opId hrow hr hid]
  exact OutboxQueue.pending_of_selects hselected

/-! ### Local calls -/

@[simp] theorem auditLocalWrite_identity (e : Engine V) (op : Operation V) :
    (e.auditLocalWrite op).identity = e.identity := by
  unfold auditLocalWrite
  split_ifs <;> rfl

@[simp] theorem auditLocalWrite_localStore (e : Engine V) (op : Operation V) :
    (e.auditLocalWrite op).localStore = e.localStore := by
  unfold auditLocalWrite
  split_ifs <;> rfl

@[simp] theorem auditLocalWrite_outbox (e : Engine V) (op : Operation V) :
    (e.auditLocalWrite op).outbox = e.outbox := by
  unfold auditLocalWrite
  split_ifs <;> rfl

@[simp] theorem auditLocalWrite_clock (e : Engine V) (op : Operation V) :
    (e.auditLocalWrite op).globalVectorClock = e.globalVectorClock := by
  unfold auditLocalWrite
  split_ifs <;> rfl

/-- The operation a call creates. -/
def stamped (e : Engine V) (c : LocalCall V) : Operation V := (e.stamp c).2

/-- The clock the store holds for a record. -/
def storedClock (e : Engine V) (key : Key) : VectorClock := e.localStore.getVectorClock key

theorem storedClock_cases (e : Engine V) (key : Key) :
    (e.localStore.get key true = none ∧ e.storedClock key = VectorClock.ofDict ∅) ∨
      ∃ r, e.localStore.get key true = some r ∧
        e.storedClock key = VectorClock.ofDict r.vectorClock := by
  unfold storedClock LocalStore.getVectorClock
  cases e.localStore.get key true with
  | none => exact Or.inl ⟨rfl, rfl⟩
  | some r => exact Or.inr ⟨r, rfl, rfl⟩

@[simp] theorem stamped_opId (e : Engine V) (c : LocalCall V) : (e.stamped c).opId = c.opId := rfl

@[simp] theorem stamped_key (e : Engine V) (c : LocalCall V) : (e.stamped c).key = c.key := rfl

@[simp] theorem stamped_nodeId (e : Engine V) (c : LocalCall V) :
    (e.stamped c).nodeId = e.nodeId := rfl

@[simp] theorem stamped_timestamp (e : Engine V) (c : LocalCall V) :
    (e.stamped c).timestamp = c.now := rfl

@[simp] theorem stamped_syncState (e : Engine V) (c : LocalCall V) :
    (e.stamped c).syncState = .pending := rfl

@[simp] theorem asCreated_stamped (e : Engine V) (c : LocalCall V) :
    (e.stamped c).asCreated = e.stamped c := rfl

theorem stamped_clock (e : Engine V) (c : LocalCall V) :
    (e.stamped c).vectorClock = ((e.storedClock c.key).increment e.nodeId).clocks := rfl

theorem get_stamped_clock (e : Engine V) (c : LocalCall V) :
    (VectorClock.ofDict (e.stamped c).vectorClock).get =
      bump e.nodeId (e.storedClock c.key).get := by
  rw [stamped_clock, VectorClock.ofDict_clocks, VectorClock.get_increment]

/-- Everything a call does to the engine, whether or not the enqueue raises. -/
structure Wrote (e : Engine V) (c : LocalCall V) (e' : Engine V) : Prop where
  identity : e'.identity = e.identity
  get : ∀ key, e'.localStore.get key true =
    if key = c.key then some (LocalStore.written (e.localStore.get c.key true) (e.stamped c))
    else e.localStore.get key true
  clock : e'.globalVectorClock = e.globalVectorClock.merge (e.stamped c).vectorClock

theorem call_wrote (e : Engine V) (c : LocalCall V) : Wrote e c (e.call c).1 := by
  rw [call_eq_write]
  unfold write
  have hget := (LocalStore.applyOperation_eq e.localStore (e.stamped c)).2
  simp only [applyLocal]
  cases (e.stamp c).1.outbox.enqueue (e.stamp c).2 with
  | error exc => exact ⟨rfl, hget, rfl⟩
  | ok outbox =>
    refine ⟨?_, ?_, ?_⟩
    · rw [auditLocalWrite_identity]; rfl
    · rw [auditLocalWrite_localStore]; exact hget
    · rw [auditLocalWrite_clock]; rfl

/-- A call either enqueues the stamped operation and returns the row it wrote, or raises
and leaves the outbox alone. -/
theorem call_cases (e : Engine V) (c : LocalCall V) :
    ((e.call c).2 = .ok (e.stamped c,
          LocalStore.written (e.localStore.get c.key true) (e.stamped c)) ∧
        (e.call c).1.outbox.rows = e.outbox.rows ++ [e.stamped c]) ∨
      ((∃ exc, (e.call c).2 = .error exc) ∧ (e.call c).1.outbox.rows = e.outbox.rows ∧
        ∃ r ∈ e.outbox.rows, r.opId = c.opId) := by
  rw [call_eq_write]
  unfold write
  have hrec := (LocalStore.applyOperation_eq e.localStore (e.stamped c)).1
  simp only [applyLocal]
  rcases e.outbox.enqueue_cases (e.stamped c) with ⟨outbox, hq, hrows, -⟩ | ⟨⟨exc, hexc⟩, htaken⟩
  · have hq' : (e.stamp c).1.outbox.enqueue (e.stamp c).2 = .ok outbox := hq
    rw [hq']
    refine Or.inl ⟨congrArg (fun r => Except.ok (e.stamped c, r)) hrec, ?_⟩
    rw [auditLocalWrite_outbox]
    exact hrows
  · have hexc' : (e.stamp c).1.outbox.enqueue (e.stamp c).2 = .error exc := hexc
    rw [hexc']
    exact Or.inr ⟨⟨exc, rfl⟩, rfl, htaken⟩

/-! ### The pull loop -/

/-- The entries one resolution adds to the log. -/
def auditsConcurrent (e : Engine V) (op : Operation V) : List AuditEntry :=
  let resolution := e.conflictResolver.resolve (e.localStore.get op.key true) op
  if e.config.auditEnabled && resolution.comparison = some .concurrent then
    [{ actionType := "conflict_resolved", nodeId := e.nodeId
       details := .conflict resolution.auditDetail }]
  else []

/-- The engine has taken in the clocks of an operation and done no more with it. -/
def received (e : Engine V) (op : Operation V) : Engine V :=
  { e with
    lamportCounter := max e.lamportCounter op.lamportTimestamp + 1
    globalVectorClock := e.globalVectorClock.merge op.vectorClock }

/-- An iteration goes through, raises before anything is stored, or raises at its audit entry. -/
theorem pullOne_cases (e : Engine V) (fault : Option Fault) (op : Operation V) :
    ((∀ exc, fault ≠ some (.read exc)) ∧
        (∀ exc, fault = some (.store exc) →
          e.conflictResolver.accepts (e.localStore.get op.key true) op = false) ∧
        e.pullOne fault op = ({ e.received op with
          localStore := e.conflictResolver.process e.localStore op
          audit := e.audit ++ e.auditsConcurrent op }, none)) ∨
      (∃ exc, (fault = some (.read exc) ∨ fault = some (.store exc)) ∧
        e.pullOne fault op = (e.received op, some exc)) ∨
      ∃ exc, fault = some (.audit exc) ∧
        e.pullOne fault op = ({ e.received op with
          localStore := e.conflictResolver.process e.localStore op }, some exc) := by
  have hacc : (e.conflictResolver.resolve (e.localStore.get op.key true) op).applies =
    e.conflictResolver.accepts (e.localStore.get op.key true) op := rfl
  unfold pullOne ConflictResolver.process auditsConcurrent
  simp only [hacc]
  cases e.conflictResolver.accepts (e.localStore.get op.key true) op <;>
    cases (e.config.auditEnabled &&
      decide ((e.conflictResolver.resolve (e.localStore.get op.key true) op).comparison =
        some .concurrent)) <;>
    rcases fault with - | (exc | exc | exc) <;>
    simp [received]

/-- Everything one iteration does, faults included. -/
structure Pulled (e : Engine V) (op : Operation V) (e' : Engine V) : Prop where
  identity : e'.identity = e.identity
  outbox : e'.outbox = e.outbox
  clock : e'.globalVectorClock = e.globalVectorClock.merge op.vectorClock
  localStore : e'.localStore = e.localStore ∨
    e'.localStore = e.conflictResolver.process e.localStore op

theorem pullOne_pulled (e : Engine V) (fault : Option Fault) (op : Operation V) :
    Pulled e op (e.pullOne fault op).1 := by
  rcases e.pullOne_cases fault op with ⟨-, -, h⟩ | ⟨exc, -, h⟩ | ⟨exc, -, h⟩
  · rw [h]
    exact ⟨rfl, rfl, rfl, Or.inr rfl⟩
  · rw [h]
    exact ⟨rfl, rfl, rfl, Or.inl rfl⟩
  · rw [h]
    exact ⟨rfl, rfl, rfl, Or.inr rfl⟩

/-- The induction rule for the pull loop: what one iteration on a decoded dictionary keeps,
the loop keeps. `done` are the operations processed so far. -/
theorem pullLoop_invariant {P : Engine V → List (Operation V) → Prop} (dicts : List (OpDict V))
    (hstep : ∀ e done op e', P e done → (∃ d ∈ dicts, Operation.fromDict d = .ok op) →
      Pulled e op e' → P e' (done ++ [op]))
    (e : Engine V) (done : List (Operation V)) (h : P e done) (faults : ℕ → Option Fault) :
    P (e.pullLoop faults dicts).engine (done ++ (e.pullLoop faults dicts).processed) := by
  induction dicts generalizing e done faults with
  | nil => simpa [pullLoop] using h
  | cons d rest ih =>
    unfold pullLoop
    cases hd : Operation.fromDict d with
    | error exc => simpa using h
    | ok op =>
      have h' := hstep e done op _ h ⟨d, by simp, hd⟩ (pullOne_pulled e (faults 0) op)
      simp only
      rcases hp : e.pullOne (faults 0) op with ⟨e', - | exc⟩
      · rw [hp] at h'
        have hrest := ih (fun e done op e' hP hop => hstep e done op e' hP
          (by obtain ⟨b, hb, hop⟩ := hop; exact ⟨b, by simp [hb], hop⟩)) _ _ h' fun i => faults (i + 1)
        simpa using hrest
      · rw [hp] at h'
        exact h'

/-- An iteration that does not raise processes the operation and logs its conflict. -/
theorem pullOne_done (e : Engine V) (fault : Option Fault) (op : Operation V) :
    (e.pullOne fault op).2 = none →
      (e.pullOne fault op).1.localStore = e.conflictResolver.process e.localStore op ∧
        (e.pullOne fault op).1.audit = e.audit ++ e.auditsConcurrent op := by
  intro hdone
  rcases e.pullOne_cases fault op with ⟨-, -, h⟩ | ⟨exc, -, h⟩ | ⟨exc, -, h⟩
  · rw [h]
    exact ⟨rfl, rfl⟩
  · rw [h] at hdone
    cases hdone
  · rw [h] at hdone
    cases hdone

theorem pullOne_noFault (e : Engine V) (op : Operation V) : (e.pullOne none op).2 = none := by
  rcases e.pullOne_cases none op with ⟨-, -, h⟩ | ⟨exc, hf, -⟩ | ⟨exc, hf, -⟩
  · rw [h]
  · rcases hf with hf | hf <;> cases hf
  · cases hf

/-- A vector clock that took in the clocks of `ops`. -/
def absorbed (clock : VectorClock) (ops : List (Operation V)) : VectorClock :=
  ops.foldl (fun clock op => clock.merge op.vectorClock) clock

/-- What is left of a pull loop that processed exactly `ops`. -/
structure PulledAll (e : Engine V) (ops : List (Operation V)) (result : PullResult V) : Prop where
  processed : result.processed = ops
  localStore : result.engine.localStore = ops.foldl e.conflictResolver.process e.localStore
  clock : result.engine.globalVectorClock = absorbed e.globalVectorClock ops
  pulled : result.tally.pulled = ops.length

/-- A loop that does not raise has decoded and processed every dictionary. -/
theorem pullLoop_done {e : Engine V} {faults : ℕ → Option Fault} {dicts : List (OpDict V)}
    (h : (e.pullLoop faults dicts).raised = none) :
    PulledAll e (Operation.decoded dicts) (e.pullLoop faults dicts) := by
  induction dicts generalizing e faults with
  | nil => exact ⟨rfl, rfl, rfl, rfl⟩
  | cons d rest ih =>
    unfold pullLoop at h ⊢
    cases hd : Operation.fromDict d with
    | error exc =>
      rw [hd] at h
      cases h
    | ok op =>
      simp only [hd] at h ⊢
      rcases hp : e.pullOne (faults 0) op with ⟨e', - | exc⟩
      · have hdone := (e.pullOne_done (faults 0) op (congrArg Prod.snd hp)).1
        have hone := pullOne_pulled e (faults 0) op
        rw [hp] at h hdone hone
        have hrest := ih h
        have hstore := hrest.localStore
        have hclock := hrest.clock
        rw [resolver_of_identity hone.identity, hdone] at hstore
        rw [hone.clock] at hclock
        rw [Operation.decoded_cons hd]
        refine ⟨congrArg (op :: ·) hrest.processed, hstore, hclock, ?_⟩
        exact congrArg (· + 1) hrest.pulled
      · rw [hp] at h
        cases h

/-- A loop that does not raise has decoded every dictionary. -/
theorem pullLoop_decodes {e : Engine V} {faults : ℕ → Option Fault} {dicts : List (OpDict V)}
    (h : (e.pullLoop faults dicts).raised = none) :
    dicts.map Operation.fromDict = (Operation.decoded dicts).map Except.ok := by
  induction dicts generalizing e faults with
  | nil => rfl
  | cons d rest ih =>
    unfold pullLoop at h
    cases hd : Operation.fromDict d with
    | error exc =>
      rw [hd] at h
      cases h
    | ok op =>
      simp only [hd] at h
      rw [Operation.decoded_cons hd, List.map_cons, List.map_cons, hd]
      rcases hp : e.pullOne (faults 0) op with ⟨e', - | exc⟩
      · rw [hp] at h
        rw [ih h]
      · rw [hp] at h
        cases h

/-- Without faults and on encoded operations every operation is processed in turn. -/
theorem pullLoop_noFaults (e : Engine V) (ops : List (Operation V)) :
    PulledAll e ops (e.pullLoop noFaults (ops.map Operation.toDict)) := by
  have hraised : (e.pullLoop noFaults (ops.map Operation.toDict)).raised = none := by
    induction ops generalizing e with
    | nil => rfl
    | cons op rest ih =>
      have hone := e.pullOne_noFault op
      rw [List.map_cons, pullLoop, Operation.fromDict_toDict]
      simp only
      rcases hp : e.pullOne (noFaults 0) op with ⟨e', - | exc⟩
      · exact ih e'
      · rw [show noFaults 0 = none from rfl] at hp
        rw [hp] at hone
        cases hone
  have hdone := pullLoop_done hraised
  rw [Operation.decoded_map_toDict] at hdone
  exact hdone

/-! ### A whole session -/

section Session

variable (e : Engine V) (sessionId : String) (link : Option ℤ) (now : ℚ)
  (faults : ℕ → Option Fault) (x : Exchange V)

@[simp] theorem auditSync_identity (peer : String) (session : SyncSession) :
    (e.auditSync peer session).identity = e.identity := by
  unfold auditSync
  split_ifs <;> rfl

@[simp] theorem auditSync_outbox (peer : String) (session : SyncSession) :
    (e.auditSync peer session).outbox = e.outbox := by
  unfold auditSync
  split_ifs <;> rfl

@[simp] theorem auditSync_localStore (peer : String) (session : SyncSession) :
    (e.auditSync peer session).localStore = e.localStore := by
  unfold auditSync
  split_ifs <;> rfl

@[simp] theorem auditSync_clock (peer : String) (session : SyncSession) :
    (e.auditSync peer session).globalVectorClock = e.globalVectorClock := by
  unfold auditSync
  split_ifs <;> rfl

/-- The pull loop keeps the outbox and the identity of the engine it starts from. -/
theorem pullLoop_frame (dicts : List (OpDict V)) :
    (e.pullLoop faults dicts).engine.identity = e.identity ∧
      (e.pullLoop faults dicts).engine.outbox = e.outbox := by
  refine pullLoop_invariant (P := fun e' _ => e'.identity = e.identity ∧ e'.outbox = e.outbox)
    dicts (fun e' _ op e'' h _ hp => ?_) e [] ⟨rfl, rfl⟩ faults
  exact ⟨hp.identity.trans h.1, hp.outbox.trans h.2⟩

/-- The rule for a session's pull loop where only the store and what was processed matter. -/
theorem pulled_invariant {P : LocalStore V → List (Operation V) → Prop}
    (hskip : ∀ s done op, P s done → P s (done ++ [op]))
    (hprocess : ∀ s done op, P s done → P (e.conflictResolver.process s op) (done ++ [op]))
    (h : P e.localStore []) :
    P (e.pulled sessionId link now faults x).engine.localStore
      (e.pulled sessionId link now faults x).processed := by
  unfold pulled
  rcases link with - | bandwidthBps
  · exact h
  rcases x.accepted with - | resp
  · exact h
  simp only
  cases unpackResponse resp with
  | error exc => exact h
  | ok dicts =>
    have hloop := pullLoop_invariant
      (P := fun e' done => e'.conflictResolver = e.conflictResolver ∧ P e'.localStore done)
      dicts (fun e' done op e'' hP _ hp => ?_)
      { (e.beginSync sessionId bandwidthBps).1 with
        outbox := (e.beginSync sessionId bandwidthBps).1.outbox.markSynced resp.ackedOpIds now }
      [] ⟨rfl, h⟩ faults
    · exact hloop.2
    · refine ⟨(resolver_of_identity hp.identity).trans hP.1, ?_⟩
      rcases hp.localStore with hs | hs
      · exact hs ▸ hskip _ _ op hP.2
      · exact hs ▸ hP.1 ▸ hprocess _ _ op hP.2

/-- Whether or not the payload decodes and the pull loop ends, the listed ids are marked. -/
theorem outbox_acceptResponse (ops : List (Operation V)) (resp : SyncPullResponse V) :
    (e.acceptResponse ops now faults resp).1.outbox = e.outbox.markSynced resp.ackedOpIds now := by
  unfold acceptResponse
  cases unpackResponse resp with
  | error exc => rfl
  | ok dicts =>
    have hframe := (pullLoop_frame { e with outbox := e.outbox.markSynced resp.ackedOpIds now }
      faults dicts).2
    simp only
    cases (({ e with outbox := e.outbox.markSynced resp.ackedOpIds now } : Engine V).pullLoop
        faults dicts).raised with
    | some exc => exact hframe
    | none => exact (auditSync_outbox _ _ _).trans hframe

theorem rows_acceptResponse (ops : List (Operation V)) (resp : SyncPullResponse V) :
    (e.acceptResponse ops now faults resp).1.outbox.rows =
      (e.outbox.markSynced resp.ackedOpIds now).rows :=
  congrArg OutboxQueue.rows (outbox_acceptResponse e now faults ops resp)

/-- What a session does to the engine beside its outbox is what its pull loop does. -/
structure Synced (e : Engine V) (p : PullResult V) (e' : Engine V) : Prop where
  identity : e'.identity = e.identity
  localStore : e'.localStore = p.engine.localStore
  clock : e'.globalVectorClock = p.engine.globalVectorClock

theorem acceptResponse_synced (ops : List (Operation V)) (resp : SyncPullResponse V)
    (hresp : resp.status ≠ "error") (bandwidthBps : ℤ)  :
    Synced e (e.pulled sessionId (some bandwidthBps) now faults (.response resp))
      ((e.beginSync sessionId bandwidthBps).1.acceptResponse ops now faults resp).1 := by
  unfold acceptResponse pulled Exchange.accepted
  simp only [if_neg hresp]
  cases unpackResponse resp with
  | error exc => exact ⟨rfl, rfl, rfl⟩
  | ok dicts =>
    have hframe := pullLoop_frame
      { (e.beginSync sessionId bandwidthBps).1 with
        outbox := (e.beginSync sessionId bandwidthBps).1.outbox.markSynced resp.ackedOpIds now }
      faults dicts
    simp only
    split
    · exact ⟨hframe.1, rfl, rfl⟩
    · refine ⟨?_, ?_, ?_⟩
      · exact (auditSync_identity _ _ _).trans hframe.1
      · exact auditSync_localStore _ _ _
      · exact auditSync_clock _ _ _

theorem syncNow_synced :
    Synced e (e.pulled sessionId link now faults x)
      (e.syncNow sessionId link now faults fun _ => x).1 := by
  cases link with
  | none => exact ⟨rfl, rfl, rfl⟩
  | some bandwidthBps =>
    cases x with
    | notSent exc => exact ⟨rfl, rfl, rfl⟩
    | failed error => exact ⟨rfl, rfl, rfl⟩
    | undecodable exc => exact ⟨rfl, rfl, rfl⟩
    | response resp =>
      unfold syncNow finishSync
      by_cases hresp : resp.status = "error"
      · simp only [if_pos hresp, pulled, Exchange.accepted]
        exact ⟨rfl, rfl, rfl⟩
      · have h := acceptResponse_synced e sessionId now faults
          (e.beginSync sessionId bandwidthBps).2.1 resp hresp bandwidthBps
        simp only [if_neg hresp]
        exact ⟨h.identity, h.localStore, h.clock⟩

/-- What a completed session has done with the operations of the response. -/
structure Completed (e : Engine V) (ops : List (Operation V)) (result : Engine V × SyncSession) :
    Prop where
  localStore : result.1.localStore = ops.foldl e.conflictResolver.process e.localStore
  clock : result.1.globalVectorClock = absorbed e.globalVectorClock ops
  opsPulled : result.2.opsPulled = ops.length

/-- A session that is completed got a response it accepted, and has processed all the
operations in it. -/
theorem syncNow_completed (bandwidthBps : ℤ) (resp : SyncPullResponse V)
    (h : (e.syncNow sessionId (some bandwidthBps) now faults fun _ => .response resp).2.status =
      "completed") :
    resp.status ≠ "error" ∧ ∃ dicts, unpackResponse resp = .ok dicts ∧
      Completed e (Operation.decoded dicts)
        (e.syncNow sessionId (some bandwidthBps) now faults fun _ => .response resp) := by
  have hfail : ∀ exc, (e.raiseOut 0 exc).2.status ≠ "completed" := fun exc => by
    change "failed" ≠ "completed"
    decide
  unfold syncNow finishSync at h ⊢
  by_cases hresp : resp.status = "error"
  · simp only [if_pos hresp] at h
    exact absurd h (hfail "")
  refine ⟨hresp, ?_⟩
  simp only [if_neg hresp] at h ⊢
  unfold acceptResponse at h ⊢
  cases hunpack : unpackResponse resp with
  | error exc =>
    rw [hunpack] at h
    exact absurd h (hfail "")
  | ok dicts =>
    refine ⟨dicts, rfl, ?_⟩
    simp only [hunpack] at h ⊢
    set e₀ : Engine V := { (e.beginSync sessionId bandwidthBps).1 with
      outbox := (e.beginSync sessionId bandwidthBps).1.outbox.markSynced resp.ackedOpIds now }
    cases hraised : (e₀.pullLoop faults dicts).raised with
    | some exc =>
      rw [hraised] at h
      exact absurd h (hfail "")
    | none =>
      have hdone := pullLoop_done hraised
      refine ⟨?_, ?_, hdone.pulled⟩
      · exact (auditSync_localStore _ _ _).trans hdone.localStore
      · exact (auditSync_clock _ _ _).trans hdone.clock

/-- The outbox rows after the second half of a session, by how it ended. -/
theorem rows_finishSync (ops : List (Operation V)) :
    (∃ error, x.marksFailed = true ∧ (e.finishSync ops now faults x).1.outbox.rows =
        (e.outbox.markFailed (ops.map Operation.opId) error).rows) ∨
      (∃ resp, x.accepted = some resp ∧ (e.finishSync ops now faults x).1.outbox.rows =
        (e.outbox.markSynced resp.ackedOpIds now).rows) ∨
      (x.marksFailed = false ∧ x.accepted = none ∧
        (e.finishSync ops now faults x).1.outbox.rows = e.outbox.rows) := by
  cases x with
  | notSent exc => exact Or.inr (Or.inr ⟨rfl, rfl, rfl⟩)
  | failed error => exact Or.inl ⟨error, rfl, rfl⟩
  | undecodable exc => exact Or.inr (Or.inr ⟨rfl, rfl, rfl⟩)
  | response resp =>
    unfold finishSync
    by_cases hresp : resp.status = "error"
    · simp only [if_pos hresp]
      exact Or.inl ⟨_, by simp [Exchange.marksFailed, hresp], rfl⟩
    · simp only [if_neg hresp]
      exact Or.inr (Or.inl ⟨resp, by simp [Exchange.accepted, hresp],
        rows_acceptResponse e now faults ops resp⟩)

theorem rows_syncNow :
    (∃ bandwidthBps error, link = some bandwidthBps ∧ x.marksFailed = true ∧
        (e.syncNow sessionId link now faults fun _ => x).1.outbox.rows =
          (e.outbox.markFailed ((e.pendingBatch bandwidthBps).map Operation.opId) error).rows) ∨
      (∃ bandwidthBps resp, link = some bandwidthBps ∧ x.accepted = some resp ∧
        (e.syncNow sessionId link now faults fun _ => x).1.outbox.rows =
          (e.outbox.markSynced resp.ackedOpIds now).rows) ∨
      ((link = none ∨ x.marksFailed = false ∧ x.accepted = none) ∧
        (e.syncNow sessionId link now faults fun _ => x).1.outbox.rows = e.outbox.rows) := by
  have hlock : ∀ ids f hf, (e.outbox.lock.1.setWhere ids f hf).rows =
      (e.outbox.setWhere ids f hf).rows :=
    OutboxQueue.rows_setWhere_congr (OutboxQueue.rows_lock e.outbox)
  cases link with
  | none => exact Or.inr (Or.inr ⟨Or.inl rfl, rfl⟩)
  | some bandwidthBps =>
    rcases rows_finishSync (e.beginSync sessionId bandwidthBps).1 now faults x
        (e.beginSync sessionId bandwidthBps).2.1 with
      ⟨error, hx, hrows⟩ | ⟨resp, hx, hrows⟩ | ⟨hx, hacc, hrows⟩
    · exact Or.inl ⟨bandwidthBps, error, rfl, hx, hrows.trans (hlock _ _ _)⟩
    · exact Or.inr (Or.inl ⟨bandwidthBps, resp, rfl, hx, hrows.trans (hlock _ _ _)⟩)
    · exact Or.inr (Or.inr ⟨Or.inr ⟨hx, hacc⟩, hrows.trans (OutboxQueue.rows_lock _)⟩)

end Session
end Engine
end Dhava
