import Dhava.Proofs.PullDelta
import Dhava.Proofs.Quiescence
import Dhava.Proofs.Redelivery

/-! A delta that takes several attempts. It has one operation for a record, and an operation
settles its row once and for all, so it makes no difference how much of the delta, in which
order and how often, was pulled by the attempts before the one that goes through. -/

namespace Dhava

open Foundations

variable {V : Type}

namespace ConflictResolver

variable (self : ConflictResolver)

theorem settle_settle (row : Option (Record V)) (op : Operation V) :
    self.settle (self.settle row op) op = self.settle row op := by
  by_cases h : self.accepts row op = true
  · have hrow : self.settle row op = some (LocalStore.written row op) := if_pos h
    have hagain : ¬ self.accepts (some (LocalStore.written row op)) op = true := by
      rw [accepts_written]
      unfold Operation.Supersedes Operation.Concurrent
      split_ifs with hdelete
      · exact not_not_intro hdelete
      · rw [not_or]
        exact ⟨lt_irrefl _, fun hc => by simp [VectorClock.compare_concurrent] at hc⟩
    rw [hrow]
    exact if_neg hagain
  · have hrow : self.settle row op = row := if_neg h
    rw [hrow, hrow]

/-- The operations of `done` have settled their rows on top of `s₀`, and the other rows stand. -/
def Settled (done : Set (Operation V)) (s₀ s : LocalStore V) : Prop :=
  ∀ key, (∃ op ∈ done, op.key = key ∧ s.get key true = self.settle (s₀.get key true) op) ∨
    ((∀ op ∈ done, op.key ≠ key) ∧ s.get key true = s₀.get key true)

variable {self} {delta done : Set (Operation V)} {s₀ s s' : LocalStore V}

theorem settled_nil (s₀ : LocalStore V) : self.Settled ∅ s₀ s₀ :=
  fun _ => Or.inr ⟨fun _ h => h.elim, rfl⟩

/-- One operation for each record: processing one settles its row, now or before. -/
theorem Settled.process (hinj : delta.InjOn Operation.key) (hdone : done ⊆ delta)
    (h : self.Settled done s₀ s) {op : Operation V} (hop : op ∈ delta) :
    self.Settled (insert op done) s₀ (self.process s op) := by
  intro key
  rw [get_process]
  by_cases hkey : key = op.key
  · subst hkey
    rw [if_pos rfl]
    refine Or.inl ⟨op, Set.mem_insert _ _, rfl, ?_⟩
    rcases h op.key with ⟨o, ho, hko, hrow⟩ | ⟨-, hrow⟩
    · obtain rfl := hinj (hdone ho) hop hko
      rw [hrow, settle_settle]
    · rw [hrow]
  · rw [if_neg hkey]
    rcases h key with ⟨o, ho, hko, hrow⟩ | ⟨hfree, hrow⟩
    · exact Or.inl ⟨o, Set.mem_insert_of_mem _ ho, hko, hrow⟩
    · refine Or.inr ⟨fun o ho => ?_, hrow⟩
      rcases ho with rfl | ho
      · exact Ne.symm hkey
      · exact hfree o ho

theorem Settled.foldl (hinj : delta.InjOn Operation.key) (hdone : done ⊆ delta)
    (h : self.Settled done s₀ s) {ops : List (Operation V)} (hops : ∀ op ∈ ops, op ∈ delta) :
    self.Settled (done ∪ {op | op ∈ ops}) s₀ (ops.foldl self.process s) := by
  induction ops generalizing done s with
  | nil =>
    have hset : done ∪ {op | op ∈ ([] : List (Operation V))} = done := by simp
    rw [hset]
    exact h
  | cons op rest ih =>
    rw [List.forall_mem_cons] at hops
    have hset : done ∪ {o | o ∈ op :: rest} = insert op done ∪ {o | o ∈ rest} := by
      ext o
      simp only [Set.mem_union, Set.mem_ofPred_eq, List.mem_cons, Set.mem_insert_iff]
      tauto
    rw [hset]
    exact ih (Set.insert_subset hops.1 hdone) (h.process hinj hdone hops.1) hops.2

theorem Settled.unique (hinj : delta.InjOn Operation.key) (h : self.Settled delta s₀ s)
    (h' : self.Settled delta s₀ s') (key : Key) : s.get key true = s'.get key true := by
  rcases h key with ⟨op, hop, hkey, hrow⟩ | ⟨hfree, hrow⟩
  · rcases h' key with ⟨op', hop', hkey', hrow'⟩ | ⟨hfree', -⟩
    · obtain rfl := hinj hop hop' (hkey.trans hkey'.symm)
      rw [hrow, hrow']
    · exact absurd hkey (hfree' op hop)
  · rcases h' key with ⟨op', hop', hkey', -⟩ | ⟨-, hrow'⟩
    · exact absurd hkey' (hfree op' hop')
    · rw [hrow, hrow']

end ConflictResolver

/-- A delta has one operation for a record. -/
theorem Server.injOn_key_delta (srv : Server V) (now : ℚ) (peerVc : VectorClock) (peer : String) :
    {op | op ∈ srv.getOperationsForPeer now peerVc peer}.InjOn Operation.key := by
  intro op hop op' hop' hkey
  rw [Set.mem_ofPred_eq, getOperationsForPeer_eq] at hop hop'
  obtain ⟨r, hr, rfl⟩ := List.mem_map.1 hop
  obtain ⟨r', hr', rfl⟩ := List.mem_map.1 hop'
  have hstored : ∀ r ∈ srv.deltaRows peerVc peer, r ∈ srv.localStore.records.rows := fun r hr =>
    ((LocalStore.mem_rowsOf _ _ _).1 (List.mem_of_mem_take ((srv.mem_deltaRows _ _ _).1 hr).2.2)).1
  rw [srv.localStore.records.eq_of_key_eq (hstored r hr) (hstored r' hr') hkey]

theorem Operation.mem_decoded {dicts : List (OpDict V)} {d : OpDict V} {op : Operation V}
    (hd : d ∈ dicts) (hop : Operation.fromDict d = .ok op) : op ∈ Operation.decoded dicts := by
  unfold decoded
  exact List.mem_filterMap.2 ⟨d, hd, by rw [hop]; rfl⟩

/-- The operations the processed response of a session carries, as far as they decode. -/
def Exchange.carried (x : Exchange V) : List (Operation V) :=
  match x.accepted with
  | none => []
  | some resp =>
    match Engine.unpackResponse resp with
    | .error _ => []
    | .ok dicts => Operation.decoded dicts

/-- A session with all its environment decides. -/
structure PullAttempt (V : Type) where
  sessionId : String
  link : Option ℤ
  now : ℚ
  faults : ℕ → Option Fault
  x : Exchange V

namespace Engine

def attempt (e : Engine V) (a : PullAttempt V) : Engine V :=
  (e.syncNow a.sessionId a.link a.now a.faults fun _ => a.x).1

theorem absorbed_le_iff (clock c : VectorClock) (ops : List (Operation V)) :
    absorbed clock ops ≤ c ↔ clock ≤ c ∧ ∀ op ∈ ops, VectorClock.ofDict op.vectorClock ≤ c := by
  constructor
  · exact fun h => ⟨(le_absorbed clock ops).trans h, fun op hop => (clock_le_absorbed clock hop).trans h⟩
  · rintro ⟨hclock, hops⟩
    induction ops generalizing clock with
    | nil => exact hclock
    | cons op rest ih =>
      rw [List.forall_mem_cons] at hops
      refine ih _ ?_ hops.2
      rw [VectorClock.le_iff, VectorClock.get_merge]
      exact sup_le hclock hops.1

/-- An engine on its way from `e₀` to having pulled `delta`. -/
structure Pulling (e₀ : Engine V) (delta : List (Operation V)) (e : Engine V) : Prop where
  identity : e.identity = e₀.identity
  rows : ∃ done : Set (Operation V), done ⊆ {op | op ∈ delta} ∧
    e₀.conflictResolver.Settled done e₀.localStore e.localStore
  from_clock : e₀.globalVectorClock ≤ e.globalVectorClock
  to_clock : e.globalVectorClock ≤ absorbed e₀.globalVectorClock delta

variable {e₀ e e' : Engine V} {delta : List (Operation V)}

theorem pulling_refl (e₀ : Engine V) (delta : List (Operation V)) : Pulling e₀ delta e₀ where
  identity := rfl
  rows := ⟨∅, Set.empty_subset _, ConflictResolver.settled_nil _⟩
  from_clock := le_rfl
  to_clock := le_absorbed _ _

/-- One iteration of a pull loop, also one that raises. -/
theorem Pulling.pullOne (hinj : {op | op ∈ delta}.InjOn Operation.key) (h : Pulling e₀ delta e)
    {op : Operation V} (hop : op ∈ delta) (hp : Pulled e op e') : Pulling e₀ delta e' := by
  obtain ⟨done, hdone, hrows⟩ := h.rows
  refine ⟨hp.identity.trans h.identity, ?_, ?_, ?_⟩
  · rcases hp.localStore with hstore | hstore
    · exact ⟨done, hdone, hstore ▸ hrows⟩
    · rw [hstore, resolver_of_identity h.identity]
      exact ⟨insert op done, Set.insert_subset hop hdone, hrows.process hinj hdone hop⟩
  · rw [hp.clock]
    exact h.from_clock.trans (e.globalVectorClock.le_merge _)
  · rw [hp.clock, VectorClock.le_iff, VectorClock.get_merge]
    exact sup_le h.to_clock (clock_le_absorbed _ hop)

theorem Pulling.of_frame (h : Pulling e₀ delta e) (hid : e'.identity = e₀.identity)
    (hstore : e'.localStore = e.localStore) (hclock : e'.globalVectorClock = e.globalVectorClock) :
    Pulling e₀ delta e' := by
  refine ⟨hid, ?_, ?_, ?_⟩
  · rw [hstore]
    exact h.rows
  · rw [hclock]
    exact h.from_clock
  · rw [hclock]
    exact h.to_clock

/-- The pull loop of a session that carries nothing else, wherever it stops. -/
theorem Pulling.pulled (hinj : {op | op ∈ delta}.InjOn Operation.key) (h : Pulling e₀ delta e)
    (a : PullAttempt V) (hcarried : ∀ op ∈ a.x.carried, op ∈ delta) :
    Pulling e₀ delta (e.pulled a.sessionId a.link a.now a.faults a.x).engine := by
  unfold Engine.pulled
  unfold Exchange.carried at hcarried
  rcases a.link with - | bandwidthBps
  · exact h
  rcases haccepted : a.x.accepted with - | resp
  · exact h
  rw [haccepted] at hcarried
  simp only at hcarried ⊢
  cases hunpack : unpackResponse resp with
  | error exc => exact h
  | ok dicts =>
    rw [hunpack] at hcarried
    let begun : Engine V :=
      { (e.beginSync a.sessionId bandwidthBps).1 with
        outbox := (e.beginSync a.sessionId bandwidthBps).1.outbox.markSynced resp.ackedOpIds a.now }
    have hbegun : Pulling e₀ delta begun := h.of_frame h.identity rfl rfl
    refine pullLoop_invariant (P := fun e _ => Pulling e₀ delta e) dicts
      (fun e done op e' hP hop hp => ?_) begun [] hbegun a.faults
    obtain ⟨d, hd, hop⟩ := hop
    exact hP.pullOne hinj (hcarried op (Operation.mem_decoded hd hop)) hp

theorem Pulling.attempt (hinj : {op | op ∈ delta}.InjOn Operation.key) (h : Pulling e₀ delta e)
    (a : PullAttempt V) (hcarried : ∀ op ∈ a.x.carried, op ∈ delta) :
    Pulling e₀ delta (e.attempt a) := by
  have hsynced := e.syncNow_synced a.sessionId a.link a.now a.faults a.x
  exact (h.pulled hinj a hcarried).of_frame (hsynced.identity.trans h.identity) hsynced.localStore
    hsynced.clock

theorem Pulling.replay (hinj : {op | op ∈ delta}.InjOn Operation.key) (h : Pulling e₀ delta e)
    {attempts : List (PullAttempt V)}
    (hcarried : ∀ a ∈ attempts, ∀ op ∈ a.x.carried, op ∈ delta) :
    Pulling e₀ delta (Foundations.replay Engine.attempt e attempts) := by
  induction attempts generalizing e with
  | nil => exact h
  | cons a rest ih =>
    rw [List.forall_mem_cons] at hcarried
    exact ih (h.attempt hinj a hcarried.1) hcarried.2

/-- What a completed session that carries the whole delta makes of the attempts before it. -/
theorem Pulling.completed (hinj : {op | op ∈ delta}.InjOn Operation.key) (h : Pulling e₀ delta e)
    {sessionId : String} {bandwidthBps : ℤ} {now : ℚ} {faults : ℕ → Option Fault}
    {resp : SyncPullResponse V}
    (hcarried : ∀ op, op ∈ (Exchange.response resp).carried ↔ op ∈ delta)
    (hdone : (e.syncNow sessionId (some bandwidthBps) now faults fun _ => .response resp).2.status =
      "completed") :
    let e' := e.attempt ⟨sessionId, some bandwidthBps, now, faults, .response resp⟩
    e₀.conflictResolver.Settled {op | op ∈ delta} e₀.localStore e'.localStore ∧
      e'.globalVectorClock = absorbed e₀.globalVectorClock delta := by
  obtain ⟨hok, dicts, hunpack, hcompleted⟩ := e.syncNow_completed sessionId now faults bandwidthBps resp hdone
  have hops : (Exchange.response resp).carried = Operation.decoded dicts := by
    unfold Exchange.carried Exchange.accepted
    simp only [if_neg hok, hunpack]
  rw [hops] at hcarried
  obtain ⟨done, hsub, hrows⟩ := h.rows
  constructor
  · have hall := hrows.foldl hinj hsub fun op hop => (hcarried op).1 hop
    have hset : done ∪ {op | op ∈ Operation.decoded dicts} = {op | op ∈ delta} := by
      ext op
      rw [Set.mem_union, Set.mem_ofPred_eq, Set.mem_ofPred_eq, hcarried]
      exact or_iff_right_of_imp fun hop => hsub hop
    rw [hset] at hall
    have hstore := hcompleted.localStore
    rw [resolver_of_identity h.identity] at hstore
    exact hstore ▸ hall
  · have hclock : (e.attempt ⟨sessionId, some bandwidthBps, now, faults, .response resp⟩).globalVectorClock =
        absorbed e.globalVectorClock (Operation.decoded dicts) := hcompleted.clock
    rw [hclock]
    refine le_antisymm ?_ ?_
    · exact (absorbed_le_iff _ _ _).2
        ⟨h.to_clock, fun op hop => clock_le_absorbed _ ((hcarried op).1 hop)⟩
    · exact (absorbed_le_iff _ _ _).2
        ⟨h.from_clock.trans (le_absorbed _ _), fun op hop => clock_le_absorbed _ ((hcarried op).2 hop)⟩

/-- A delta is pulled by attempts, each of which gets through any part of it before it fails, and
by a session that completes with all of it, in any order and with repetitions. The rows and the
clock are what one pass through the delta leaves. -/
theorem pull_attempts_converge (srv : Server V) (serverNow : ℚ) (peerVc : VectorClock)
    (peer : String) (e : Engine V) (attempts : List (PullAttempt V))
    (sessionId : String) (bandwidthBps : ℤ) (now : ℚ) (faults : ℕ → Option Fault)
    (resp : SyncPullResponse V) :
    let delta := srv.getOperationsForPeer serverNow peerVc peer
    let e₁ := replay attempt e attempts
    let e₂ := e₁.attempt ⟨sessionId, some bandwidthBps, now, faults, .response resp⟩
    (∀ a ∈ attempts, ∀ op ∈ a.x.carried, op ∈ delta) →
    (∀ op, op ∈ (Exchange.response resp).carried ↔ op ∈ delta) →
    (e₁.syncNow sessionId (some bandwidthBps) now faults fun _ => .response resp).2.status =
      "completed" →
    (∀ key, e₂.localStore.get key true =
        (delta.foldl e.conflictResolver.process e.localStore).get key true) ∧
      e₂.globalVectorClock = absorbed e.globalVectorClock delta := by
  intro delta e₁ e₂ hattempts hcarried hdone
  have hinj := srv.injOn_key_delta serverNow peerVc peer
  have hpulling : Pulling e delta e₁ := (pulling_refl e delta).replay hinj hattempts
  obtain ⟨hrows, hclock⟩ := hpulling.completed hinj hcarried hdone
  have hstart : e.conflictResolver.Settled ∅ e.localStore e.localStore :=
    ConflictResolver.settled_nil e.localStore
  have hwhole := hstart.foldl hinj (Set.empty_subset _) fun (_ : Operation V) hop => hop
  rw [Set.empty_union] at hwhole
  exact ⟨hrows.unique hinj hwhole, hclock⟩

/-- A server that has taken in two records of node `a`. -/
def twoRecords : Server ℕ :=
  let report (id : String) (n : ℤ) : Operation ℕ :=
    { opId := id, nodeId := "a", opType := .create, collection := "reports", recordId := id
      payload := ∅, timestamp := 0, vectorClock := (∅ : Dict String ℤ).insert "a" n
      lamportTimestamp := n, enqueuedAt := 0 }
  ((Server.create "hq").pushLoop noFaults [(report "r1" 1).toDict, (report "r2" 2).toDict]).server

/-- The disk is full at the second record. The next response has the two the other way round,
and one of them twice. -/
theorem pull_attempts_converge_example :
    let delta := twoRecords.getOperationsForPeer 1 (VectorClock.ofDict ∅) "b"
    let response (ops : List (Operation ℕ)) : SyncPullResponse ℕ :=
      { nodeId := "hq", sessionId := "s", status := "ok", ackedOpIds := []
        operationCount := ops.length, encryptedPayload := .packed (ops.map Operation.toDict) }
    let full : ℕ → Option Fault := fun i => if i = 1 then some (.store "disk full") else none
    let e : Engine ℕ := Engine.create "b"
    let e₁ := e.attempt ⟨"s", some 9600, 2, full, .response (response delta)⟩
    let e₂ := e₁.attempt ⟨"s", some 9600, 3, noFaults, .response (response (delta.reverse ++ delta))⟩
    (∀ key, e₂.localStore.get key true =
        (delta.foldl e.conflictResolver.process e.localStore).get key true) ∧
      e₂.globalVectorClock = absorbed e.globalVectorClock delta := by
  intro delta response full e e₁ e₂
  have hcarried : ∀ ops, (Exchange.response (response ops)).carried = ops :=
    fun ops => Operation.decoded_map_toDict ops
  refine pull_attempts_converge twoRecords 1 (VectorClock.ofDict ∅) "b" e
    [⟨"s", some 9600, 2, full, .response (response delta)⟩] "s" 9600 3 noFaults
    (response (delta.reverse ++ delta)) ?_ ?_ (by decide +kernel)
  · rw [List.forall_mem_singleton, hcarried]
    exact fun op hop => hop
  · intro op
    rw [hcarried, List.mem_append, List.mem_reverse]
    exact or_self_iff

end Engine
end Dhava
