import Dhava.Foundations.Run
import Dhava.Proofs.Session
import Dhava.Spec.Overlap

/-! What the lock would have to guarantee. Batches of open calls are disjoint and no synced row
is marked failed in exactly the runs in which no call selects what another one holds and no
failure meets a synced row. A caller that goes by what `lock()` returns keeps to those runs;
`sync_now` does not look at it. -/

namespace Dhava

open Foundations

variable {V : Type}

namespace Overlap

/-- No operation is in the batches of two open calls. -/
def Exclusive (o : Overlap V) : Prop :=
  ∀ i j, i ≠ j → (o.session i).isOpen = true → (o.session j).isOpen = true →
    ∀ a ∈ (o.session i).batch, ∀ b ∈ (o.session j).batch, a.opId ≠ b.opId

/-- No row that is `synced` in the one state is `failed` in the other, a later one. -/
def KeepsSynced (o o' : Overlap V) : Prop :=
  ∀ r ∈ o.outbox.rows, r.syncState = .synced →
    ∀ r' ∈ o'.outbox.rows, r'.opId = r.opId → r'.syncState ≠ .failed

/-- What the step of a call would read is nobody else's: a call that selects its batch finds no
operation that an open call holds, and one that marks its batch failed finds no synced row in it. -/
def Undisturbed (o : Overlap V) : OverlapEvent V → Prop
  | .getPending i limit maxPriority =>
    match o.session i with
    | .locked => ∀ j, j ≠ i → (o.session j).isOpen = true →
      ∀ a ∈ o.outbox.getPending limit none (some maxPriority), ∀ b ∈ (o.session j).batch,
        a.opId ≠ b.opId
    | _ => True
  | .mark i _ =>
    match o.session i with
    | .exchanged pendingOps x => x.marksFailed = true →
      ∀ r ∈ o.outbox.rows, r.opId ∈ pendingOps.map Operation.opId → r.syncState ≠ .synced
    | _ => True
  | _ => True

/-- A call goes on only where `lock()` has returned `True`, and one that raised on the way to
it releases nothing. -/
def Honoured (o : Overlap V) : OverlapEvent V → Prop
  | .lock i =>
    match o.session i with
    | .ready => o.outbox.lock.2 = true
    | _ => True
  | .unlock i =>
    match o.session i with
    | .aborted => o.outbox.isLocked = false
    | _ => True
  | _ => True

theorem move_self (o : Overlap V) (i : ℕ) (q : OutboxQueue V) (phase : Phase V) :
    (o.move i q phase).session i = phase := Function.update_self ..

theorem move_of_ne (o : Overlap V) {i j : ℕ} (h : j ≠ i) (q : OutboxQueue V) (phase : Phase V) :
    (o.move i q phase).session j = o.session j := Function.update_of_ne h ..

/-- One call moves to a phase with no batch, or with the batch it had, opening nothing. -/
theorem session_move {o : Overlap V} {i : ℕ} (q : OutboxQueue V) {phase : Phase V}
    (h : phase.batch = [] ∨ phase.batch = (o.session i).batch ∧ (o.session i).isOpen = true) (j : ℕ) :
    ((o.move i q phase).session j).batch = [] ∨
      ((o.move i q phase).session j).batch = (o.session j).batch ∧
        (((o.move i q phase).session j).isOpen = true → (o.session j).isOpen = true) := by
  by_cases hj : j = i
  · subst hj
    rw [move_self]
    exact h.imp id (And.imp id fun hopen _ => hopen)
  · rw [move_of_ne o hj]
    exact Or.inr ⟨rfl, id⟩

/-- A call is left with no batch, or with the one it had, unless this is the step that selects it. -/
theorem session_step (o : Overlap V) (ev : OverlapEvent V) (j : ℕ) :
    (((o.step ev).session j).batch = [] ∨
      ((o.step ev).session j).batch = (o.session j).batch ∧
        (((o.step ev).session j).isOpen = true → (o.session j).isOpen = true)) ∨
      ∃ limit maxPriority, ev = .getPending j limit maxPriority ∧ o.session j = .locked ∧
        ((o.step ev).session j).batch = o.outbox.getPending limit none (some maxPriority) := by
  have hsame : (o.session j).batch = [] ∨ (o.session j).batch = (o.session j).batch ∧
      ((o.session j).isOpen = true → (o.session j).isOpen = true) := Or.inr ⟨rfl, id⟩
  cases ev with
  | enqueue op =>
    simp only [step]
    cases o.outbox.enqueue op <;> exact Or.inl hsame
  | lock i =>
    simp only [step]
    cases hi : o.session i with
    | ready => exact Or.inl (session_move _ (Or.inl rfl) j)
    | _ => exact Or.inl hsame
  | getPending i limit maxPriority =>
    simp only [step]
    cases hi : o.session i with
    | locked =>
      by_cases hj : j = i
      · subst hj
        exact Or.inr ⟨limit, maxPriority, rfl, hi, by rw [move_self]; rfl⟩
      · simp only
        rw [move_of_ne o hj]
        exact Or.inl hsame
    | _ => exact Or.inl hsame
  | exchange i x =>
    simp only [step]
    cases hi : o.session i with
    | batched pendingOps =>
      exact Or.inl (session_move _ (Or.inr ⟨by rw [hi]; rfl, by rw [hi]; rfl⟩) j)
    | _ => exact Or.inl hsame
  | mark i now =>
    simp only [step]
    cases hi : o.session i with
    | exchanged pendingOps x =>
      exact Or.inl (session_move _ (Or.inr ⟨by rw [hi]; rfl, by rw [hi]; rfl⟩) j)
    | _ => exact Or.inl hsame
  | raise i =>
    simp only [step]
    cases hi : o.session i with
    | ready => exact Or.inl (session_move _ (Or.inl rfl) j)
    | locked => exact Or.inl (session_move _ (Or.inl rfl) j)
    | batched pendingOps =>
      exact Or.inl (session_move _ (Or.inr ⟨by rw [hi]; rfl, by rw [hi]; rfl⟩) j)
    | exchanged pendingOps x =>
      exact Or.inl (session_move _ (Or.inr ⟨by rw [hi]; rfl, by rw [hi]; rfl⟩) j)
    | _ => exact Or.inl hsame
  | unlock i =>
    simp only [step]
    cases hi : o.session i with
    | aborted => exact Or.inl (session_move _ (Or.inl rfl) j)
    | closing pendingOps => exact Or.inl (session_move _ (Or.inl rfl) j)
    | _ => exact Or.inl hsame

theorem exclusive_init (q : OutboxQueue V) : Exclusive { outbox := q } :=
  fun i j _ hi => by cases hi

theorem exclusive_step {o : Overlap V} (h : o.Exclusive) {ev : OverlapEvent V}
    (hev : o.Undisturbed ev) : (o.step ev).Exclusive := by
  intro i j hij hi hj a ha b hb
  rcases o.session_step ev i with (hnone | ⟨hbatch, hopen⟩) | ⟨limit, maxPriority, rfl, hlocked, hbatch⟩
  · rw [hnone] at ha
    cases ha
  · rcases o.session_step ev j with
      (hnone' | ⟨hbatch', hopen'⟩) | ⟨limit, maxPriority, rfl, hlocked, hbatch'⟩
    · rw [hnone'] at hb
      cases hb
    · rw [hbatch] at ha
      rw [hbatch'] at hb
      exact h i j hij (hopen hi) (hopen' hj) a ha b hb
    · rw [hbatch] at ha
      rw [hbatch'] at hb
      simp only [Undisturbed, hlocked] at hev
      exact (hev i hij (hopen hi) b hb a ha).symm
  · rcases o.session_step (.getPending i limit maxPriority) j with
      (hnone' | ⟨hbatch', hopen'⟩) | ⟨limit', maxPriority', hev', -, -⟩
    · rw [hnone'] at hb
      cases hb
    · rw [hbatch] at ha
      rw [hbatch'] at hb
      simp only [Undisturbed, hlocked] at hev
      exact hev j hij.symm (hopen' hj) a ha b hb
    · injection hev' with hji
      exact absurd hji hij

/-! ### Synced rows -/

/-- Every row that is `synced` stays so. -/
def StaysSynced (q q' : OutboxQueue V) : Prop :=
  ∀ r ∈ q.rows, r.syncState = .synced → ∃ r' ∈ q'.rows, r'.opId = r.opId ∧ r'.syncState = .synced

theorem StaysSynced.of_mem {q q' : OutboxQueue V} (h : ∀ r ∈ q.rows, r ∈ q'.rows) :
    StaysSynced q q' := fun r hr hsynced => ⟨r, h r hr, rfl, hsynced⟩

theorem StaysSynced.refl (q : OutboxQueue V) : StaysSynced q q := of_mem fun _ hr => hr

theorem StaysSynced.trans {a b c : OutboxQueue V} (h₁ : StaysSynced a b) (h₂ : StaysSynced b c) :
    StaysSynced a c := by
  intro r hr hsynced
  obtain ⟨r₁, hr₁, hid₁, hsynced₁⟩ := h₁ r hr hsynced
  obtain ⟨r₂, hr₂, hid₂, hsynced₂⟩ := h₂ r₁ hr₁ hsynced₁
  exact ⟨r₂, hr₂, hid₂.trans hid₁, hsynced₂⟩

/-- There is one row for an id, so a row that stays synced is not failed. -/
theorem StaysSynced.keepsSynced {o o' : Overlap V} (h : StaysSynced o.outbox o'.outbox) :
    o.KeepsSynced o' := by
  intro r hr hsynced r' hr' hid
  obtain ⟨r₁, hr₁, hid₁, hsynced₁⟩ := h r hr hsynced
  rw [OutboxQueue.eq_of_opId hr' hr₁ (hid.trans hid₁.symm), hsynced₁]
  decide

/-- A failure is written on the rows of the batch alone. -/
theorem staysSynced_markFailed {q : OutboxQueue V} {ids : List String}
    (hids : ∀ r ∈ q.rows, r.opId ∈ ids → r.syncState ≠ .synced) (error : String) :
    StaysSynced q (q.markFailed ids error) := by
  intro r hr hsynced
  have hnot : r.opId ∉ ids := fun hmem => hids r hr hmem hsynced
  exact ⟨r, OutboxQueue.mem_markFailed.2 ⟨r, hr, (if_neg hnot).symm⟩, rfl, hsynced⟩

theorem staysSynced_markSynced (q : OutboxQueue V) (ids : List String) (now : ℚ) :
    StaysSynced q (q.markSynced ids now) := by
  intro r hr hsynced
  refine ⟨_, OutboxQueue.mem_markSynced.2 ⟨r, hr, rfl⟩, ?_⟩
  split_ifs
  · exact ⟨rfl, rfl⟩
  · exact ⟨rfl, hsynced⟩

/-- The outcomes that mark the batch failed, and the others. -/
theorem markOutcome_cases (q : OutboxQueue V) (pendingOps : List (Operation V)) (now : ℚ)
    (x : Exchange V) :
    (x.marksFailed = true ∧
        ∃ error, q.markOutcome pendingOps now x = q.markFailed (pendingOps.map Operation.opId) error) ∨
      q.markOutcome pendingOps now x = q ∨
      ∃ ids, q.markOutcome pendingOps now x = q.markSynced ids now := by
  cases x with
  | notSent exc => exact Or.inr (Or.inl rfl)
  | undecodable exc => exact Or.inr (Or.inl rfl)
  | failed error => exact Or.inl ⟨rfl, error, rfl⟩
  | response resp =>
    by_cases herror : resp.status = "error"
    · exact Or.inl ⟨decide_eq_true herror, resp.errMsg, if_pos herror⟩
    · exact Or.inr (Or.inr ⟨resp.ackedOpIds, if_neg herror⟩)

/-- Only a mark changes a row. -/
theorem staysSynced_step {o : Overlap V} {ev : OverlapEvent V} (hev : o.Undisturbed ev) :
    StaysSynced o.outbox (o.step ev).outbox := by
  have hrefl := StaysSynced.refl o.outbox
  cases ev with
  | enqueue op =>
    simp only [step]
    cases hq : o.outbox.enqueue op with
    | error exc => exact hrefl
    | ok q =>
      refine StaysSynced.of_mem fun r hr => ?_
      rw [OutboxQueue.enqueue_ok hq]
      exact List.mem_append_left _ hr
  | mark i now =>
    simp only [step]
    cases hi : o.session i with
    | exchanged pendingOps x =>
      simp only [Undisturbed, hi] at hev
      change StaysSynced o.outbox (o.outbox.markOutcome pendingOps now x)
      rcases markOutcome_cases o.outbox pendingOps now x with ⟨hx, error, heq⟩ | heq | ⟨ids, heq⟩
      · rw [heq]
        exact staysSynced_markFailed (hev hx) error
      · rw [heq]
        exact hrefl
      · rw [heq]
        exact staysSynced_markSynced o.outbox ids now
    | _ => exact hrefl
  | lock i =>
    simp only [step]
    cases o.session i with
    | ready => exact StaysSynced.of_mem fun r hr => (OutboxQueue.rows_lock o.outbox).symm ▸ hr
    | _ => exact hrefl
  | _ =>
    simp only [step]
    split <;> exact hrefl

theorem staysSynced_replay {o : Overlap V} {evs : List (OverlapEvent V)}
    (hevs : Admitted step Undisturbed o evs) :
    StaysSynced o.outbox (replay step o evs).outbox :=
  hevs.invariant (P := fun o' => StaysSynced o.outbox o'.outbox) (StaysSynced.refl o.outbox)
    fun _ _ ho' hev => ho'.trans (staysSynced_step hev)

/-- A step after which batches overlap, or a synced row is failed, was a disturbed one. -/
theorem undisturbed_of_step {o : Overlap V} {ev : OverlapEvent V} (hexclusive : (o.step ev).Exclusive)
    (hkeeps : o.KeepsSynced (o.step ev)) : o.Undisturbed ev := by
  cases ev with
  | getPending i limit maxPriority =>
    cases hi : o.session i with
    | locked =>
      simp only [Undisturbed, hi]
      intro j hj hopen a ha b hb
      simp only [step, hi] at hexclusive
      refine hexclusive i j hj.symm ?_ ?_ a ?_ b ?_
      · rw [move_self]
        rfl
      · rw [move_of_ne o hj]
        exact hopen
      · rw [move_self]
        exact ha
      · rw [move_of_ne o hj]
        exact hb
    | _ => simp only [Undisturbed, hi]
  | mark i now =>
    cases hi : o.session i with
    | exchanged pendingOps x =>
      simp only [Undisturbed, hi]
      intro hx r hr hmem hsynced
      simp only [step, hi] at hkeeps
      obtain ⟨error, heq⟩ : ∃ error, o.outbox.markOutcome pendingOps now x =
          o.outbox.markFailed (pendingOps.map Operation.opId) error := by
        cases x with
        | failed error => exact ⟨error, rfl⟩
        | response resp => exact ⟨resp.errMsg, if_pos (of_decide_eq_true hx)⟩
        | _ => cases hx
      let failed : Operation V :=
        { r with syncState := .failed, syncAttempts := r.syncAttempts + 1, lastError := some error }
      have hfailed : failed ∈ (o.outbox.markOutcome pendingOps now x).rows := by
        rw [heq]
        exact OutboxQueue.mem_markFailed.2 ⟨r, hr, (if_pos hmem).symm⟩
      exact hkeeps r hr hsynced failed hfailed rfl rfl
    | _ => simp only [Undisturbed, hi]
  | _ => exact trivial

/-! ### A lock that is honoured -/

/-- The operations of a call that has selected its batch and not marked it yet. -/
def unmarked : Phase V → List (Operation V)
  | .batched pendingOps | .exchanged pendingOps _ => pendingOps
  | _ => []

/-- The lock is held while a call is open, by that call alone, and the rows it has selected are
still as it has read them. -/
structure Guarded (o : Overlap V) : Prop where
  held : ∀ i, (o.session i).isOpen = true → o.outbox.syncLocked = true
  alone : ∀ i j, (o.session i).isOpen = true → (o.session j).isOpen = true → i = j
  pending : ∀ i, ∀ op ∈ unmarked (o.session i), op ∈ o.outbox.rows ∧ op.syncState = .pending

theorem guarded_init (q : OutboxQueue V) : Guarded { outbox := q } := by
  refine ⟨fun i hi => ?_, fun i j hi => ?_, fun i op hop => ?_⟩
  · cases hi
  · cases hi
  · cases hop

theorem isOpen_of_unmarked {phase : Phase V} {op : Operation V} (h : op ∈ unmarked phase) :
    phase.isOpen = true := by
  cases phase <;> first | rfl | cases h

theorem Guarded.others_closed {o : Overlap V} (h : o.Guarded) {i : ℕ}
    (hi : (o.session i).isOpen = true) : ∀ j, j ≠ i → (o.session j).isOpen = false := by
  intro j hj
  by_contra hopen
  exact hj (h.alone j i (by simpa using hopen) hi)

theorem Guarded.all_closed {o : Overlap V} (h : o.Guarded) (hfree : o.outbox.syncLocked = false)
    (j : ℕ) : (o.session j).isOpen = false := by
  by_contra hopen
  rw [h.held j (by simpa using hopen)] at hfree
  cases hfree

/-- One call moves while no other is open. -/
theorem guarded_move {o : Overlap V} {i : ℕ} {q : OutboxQueue V} {phase : Phase V}
    (hothers : ∀ j, j ≠ i → (o.session j).isOpen = false)
    (hheld : phase.isOpen = true → q.syncLocked = true)
    (hops : ∀ op ∈ unmarked phase, op ∈ q.rows ∧ op.syncState = .pending) :
    (o.move i q phase).Guarded := by
  have honly : ∀ j, ((o.move i q phase).session j).isOpen = true → j = i := by
    intro j hopen
    by_contra hj
    rw [move_of_ne o hj, hothers j hj] at hopen
    cases hopen
  refine ⟨fun j hj => ?_, fun j k hj hk => (honly j hj).trans (honly k hk).symm, fun j op hop => ?_⟩
  · obtain rfl := honly j hj
    rw [move_self] at hj
    exact hheld hj
  · obtain rfl := honly j (isOpen_of_unmarked hop)
    rw [move_self] at hop
    exact hops op hop

/-- A call that is open moves on. -/
theorem Guarded.move {o : Overlap V} (h : o.Guarded) {i : ℕ} (hi : (o.session i).isOpen = true)
    {q : OutboxQueue V} {phase : Phase V} (hlocked : q.syncLocked = o.outbox.syncLocked)
    (hops : ∀ op ∈ unmarked phase, op ∈ q.rows ∧ op.syncState = .pending) :
    (o.move i q phase).Guarded :=
  guarded_move (h.others_closed hi) (fun _ => hlocked.trans (h.held i hi)) hops

theorem syncLocked_markOutcome (q : OutboxQueue V) (pendingOps : List (Operation V)) (now : ℚ)
    (x : Exchange V) : (q.markOutcome pendingOps now x).syncLocked = q.syncLocked := by
  rcases markOutcome_cases q pendingOps now x with ⟨-, error, heq⟩ | heq | ⟨ids, heq⟩ <;>
    rw [heq] <;> rfl

theorem guarded_step {o : Overlap V} (h : o.Guarded) {ev : OverlapEvent V} (hev : o.Honoured ev) :
    (o.step ev).Guarded := by
  cases ev with
  | enqueue op =>
    simp only [step]
    cases hq : o.outbox.enqueue op with
    | error exc => exact h
    | ok q =>
      have hlocked : q.syncLocked = o.outbox.syncLocked := OutboxQueue.syncLocked_enqueue hq
      refine ⟨fun i hi => hlocked.trans (h.held i hi), h.alone, fun i a ha => ?_⟩
      obtain ⟨hrow, hpend⟩ := h.pending i a ha
      exact ⟨OutboxQueue.enqueue_ok hq ▸ List.mem_append_left _ hrow, hpend⟩
  | lock i =>
    simp only [step]
    cases hi : o.session i with
    | ready =>
      -- `lock()` returns `True` on a free lock, so nobody is open
      simp only [Honoured, hi] at hev
      obtain ⟨hfree, htaken⟩ := OutboxQueue.lock_eq_true hev
      exact guarded_move (fun j _ => h.all_closed hfree j) (fun _ => htaken) fun op hop => by cases hop
    | _ => exact h
  | getPending i limit maxPriority =>
    simp only [step]
    cases hi : o.session i with
    | locked =>
      refine h.move (by rw [hi]; rfl) rfl fun op hop => ?_
      obtain ⟨hrow, hsel⟩ := OutboxQueue.mem_getPending hop
      exact ⟨hrow, OutboxQueue.pending_of_selects hsel⟩
    | _ => exact h
  | exchange i x =>
    simp only [step]
    cases hi : o.session i with
    | batched pendingOps =>
      exact h.move (by rw [hi]; rfl) rfl fun op hop => h.pending i op (by rw [hi]; exact hop)
    | _ => exact h
  | mark i now =>
    simp only [step]
    cases hi : o.session i with
    | exchanged pendingOps x =>
      refine h.move (by rw [hi]; rfl) (syncLocked_markOutcome _ _ _ _) fun op hop => ?_
      cases hop
    | _ => exact h
  | raise i =>
    simp only [step]
    cases hi : o.session i with
    | ready =>
      -- the call never opens, and the others stay as they are
      have hclosed : ∀ j, ((o.move i o.outbox .aborted).session j).isOpen = true →
          (o.session j).isOpen = true ∧ j ≠ i := by
        intro j hj
        by_cases hji : j = i
        · subst hji
          rw [move_self] at hj
          cases hj
        · rw [move_of_ne o hji] at hj
          exact ⟨hj, hji⟩
      refine ⟨fun j hj => h.held j (hclosed j hj).1,
        fun j k hj hk => h.alone j k (hclosed j hj).1 (hclosed k hk).1, fun j op hop => ?_⟩
      rw [move_of_ne o (hclosed j (isOpen_of_unmarked hop)).2] at hop
      exact h.pending j op hop
    | locked => exact h.move (by rw [hi]; rfl) rfl fun op hop => by cases hop
    | batched pendingOps => exact h.move (by rw [hi]; rfl) rfl fun op hop => by cases hop
    | exchanged pendingOps x => exact h.move (by rw [hi]; rfl) rfl fun op hop => by cases hop
    | _ => exact h
  | unlock i =>
    simp only [step]
    cases hi : o.session i with
    | aborted =>
      simp only [Honoured, hi] at hev
      exact guarded_move (fun j _ => h.all_closed hev j) (fun hopen => by cases hopen)
        fun op hop => by cases hop
    | closing pendingOps =>
      exact guarded_move (h.others_closed (by rw [hi]; rfl)) (fun hopen => by cases hopen)
        fun op hop => by cases hop
    | _ => exact h

/-- Nobody else is open, and the rows of the batch are still pending. -/
theorem Guarded.undisturbed {o : Overlap V} (h : o.Guarded) (ev : OverlapEvent V) :
    o.Undisturbed ev := by
  cases ev with
  | getPending i limit maxPriority =>
    cases hi : o.session i with
    | locked =>
      simp only [Undisturbed, hi]
      intro j hj hopen
      exact absurd (h.alone j i hopen (by rw [hi]; rfl)) hj
    | _ => simp only [Undisturbed, hi]
  | mark i now =>
    cases hi : o.session i with
    | exchanged pendingOps x =>
      simp only [Undisturbed, hi]
      intro _ r hr hmem hsynced
      obtain ⟨op, hop, hid⟩ := List.mem_map.1 hmem
      obtain ⟨hrow, hpend⟩ := h.pending i op (by rw [hi]; exact hop)
      rw [OutboxQueue.eq_of_opId hrow hr hid, hsynced] at hpend
      cases hpend
    | _ => simp only [Undisturbed, hi]
  | _ => exact trivial

/-- The marks of a session, whichever way it ended. -/
theorem outbox_finishSync (e : Engine V) (pendingOps : List (Operation V)) (now : ℚ)
    (faults : ℕ → Option Fault) (x : Exchange V) :
    (e.finishSync pendingOps now faults x).1.outbox =
      (e.outbox.markOutcome pendingOps now x).unlock := by
  unfold Engine.finishSync OutboxQueue.markOutcome
  cases x with
  | notSent exc => rfl
  | failed error => rfl
  | undecodable exc => rfl
  | response resp =>
    simp only
    split_ifs
    · rfl
    · exact congrArg OutboxQueue.unlock (Engine.outbox_acceptResponse e now faults pendingOps resp)

/-- A call that meets nobody leaves the outbox as `sync_now` does. -/
theorem replay_script (e : Engine V) (i : ℕ) (sessionId : String) (bandwidthBps : ℤ) (now : ℚ)
    (faults : ℕ → Option Fault) (x : Exchange V) :
    (replay step { outbox := e.outbox } (script i (e.calculateBatchSize bandwidthBps)
        (e.calculatePriorityCutoff bandwidthBps) x now)).outbox =
      (e.syncNow sessionId (some bandwidthBps) now faults fun _ => x).1.outbox := by
  have hbatch : e.outbox.lock.1.getPending (e.calculateBatchSize bandwidthBps) none
      (some (e.calculatePriorityCutoff bandwidthBps)) = e.pendingBatch bandwidthBps := by
    unfold Engine.pendingBatch OutboxQueue.getPending
    rw [OutboxQueue.rows_lock]
  have hfinish := outbox_finishSync (e.beginSync sessionId bandwidthBps).1
    (e.pendingBatch bandwidthBps) now faults x
  simp only [replay, script, List.foldl_cons, List.foldl_nil, step, move, Function.update_self, hbatch]
  exact hfinish.symm

/-- Batches of open calls are disjoint throughout a run, and no row that has been synced is failed
at any later point of it, in exactly the runs whose steps are undisturbed. Those are all the runs
in which the calls honour the lock, and others. -/
theorem lock_excludes (q : OutboxQueue V) (evs : List (OverlapEvent V)) :
    (((∀ evs', evs' <+: evs → (replay step { outbox := q } evs').Exclusive) ∧
        ∀ evs₁ evs₂, evs₁ ++ evs₂ <+: evs →
          (replay step { outbox := q } evs₁).KeepsSynced
            (replay step { outbox := q } (evs₁ ++ evs₂))) ↔
      Admitted step Undisturbed { outbox := q } evs) ∧
    (Admitted step Honoured { outbox := q } evs → Admitted step Undisturbed { outbox := q } evs) := by
  refine ⟨⟨fun ⟨hexclusive, hkeeps⟩ => ?_, fun h => ⟨fun evs' hpre => ?_, fun evs₁ evs₂ hpre => ?_⟩⟩,
    fun h => ?_⟩
  · refine admitted_iff_split.2 fun before ev after hsplit => ?_
    have hpre : before ++ [ev] <+: evs := ⟨after, by rw [hsplit, List.append_assoc]; rfl⟩
    have hstep : replay step { outbox := q } (before ++ [ev]) =
        (replay step { outbox := q } before).step ev := replay_concat before ev
    exact undisturbed_of_step (hstep ▸ hexclusive _ hpre) (hstep ▸ hkeeps before [ev] hpre)
  · exact (h.of_prefix hpre).invariant (exclusive_init q) fun _ _ hs hev => exclusive_step hs hev
  · have hlater := ((admitted_append evs₁ evs₂).1 (h.of_prefix hpre)).2
    rw [replay_append]
    exact (staysSynced_replay hlater).keepsSynced
  · refine admitted_iff_split.2 fun before ev after hsplit => Guarded.undisturbed ?_ ev
    have hbefore : Admitted step Honoured { outbox := q } before :=
      h.of_prefix ⟨ev :: after, hsplit.symm⟩
    exact hbefore.invariant (guarded_init q) fun _ _ hs hev => guarded_step hs hev

/-- An outbox with one pending report. -/
def oneReport : OutboxQueue ℕ :=
  ((Engine.create "a").call { opType := .create, collection := "incidents", recordId := "r"
                              opId := "report", now := 0, enqueuedAt := 0 }).1.outbox

/-- The response to a push of the report. -/
def reportAcked : Exchange ℕ :=
  .response { nodeId := "hq", sessionId := "s", status := "ok", ackedOpIds := ["report"] }

/-- The second call takes its lock step while the first one is open, and selects its batch once
that one has marked. -/
def takingTurns : List (OverlapEvent ℕ) :=
  [.lock 0, .getPending 0 100 .p4, .lock 1, .exchange 0 reportAcked, .mark 0 1,
    .getPending 1 100 .p4, .exchange 1 (.failed "Peer did not respond"), .mark 1 2]

theorem lock_excludes_example :
    Admitted step Undisturbed { outbox := oneReport }
        (script 0 100 .p4 reportAcked 1 ++ script 1 100 .p4 (.failed "Peer did not respond") 2) ∧
      (replay step { outbox := oneReport } (takingTurns.take 3)).Exclusive ∧
      (replay step { outbox := oneReport } (takingTurns.take 5)).KeepsSynced
        (replay step { outbox := oneReport } (takingTurns.take 5 ++ takingTurns.drop 5)) := by
  have hhonoured : Admitted step Honoured { outbox := oneReport }
      (script 0 100 .p4 reportAcked 1 ++
        script 1 100 .p4 (.failed "Peer did not respond") 2) := by
    refine ⟨?_, trivial, trivial, trivial, trivial, ?_, trivial, trivial, trivial, trivial, trivial⟩
    · rfl
    · rfl
  let turn := replay step { outbox := oneReport } (takingTurns.take 5)
  have hnone : turn.outbox.getPending 100 none (some .p4) = [] := by decide +kernel
  have hturns : Admitted step Undisturbed { outbox := oneReport } takingTurns := by
    refine ⟨trivial, ?_, trivial, trivial, ?_, ?_, trivial, ?_, trivial⟩
    · intro j hj hopen
      exact absurd hopen (by simp [step, move, hj, Phase.isOpen])
    · intro hx
      cases hx
    · intro j _ _ a ha
      have hmem : a ∈ turn.outbox.getPending 100 none (some .p4) := ha
      rw [hnone] at hmem
      cases hmem
    · intro _ r _ hid
      have hmem : r.opId ∈ (turn.outbox.getPending 100 none (some .p4)).map Operation.opId := hid
      rw [hnone] at hmem
      cases hmem
  have h := (lock_excludes oneReport takingTurns).1.2 hturns
  refine ⟨(lock_excludes oneReport _).2 hhonoured, h.1 _ (List.take_prefix _ _), h.2 _ _ ?_⟩
  rw [List.take_append_drop]

/-- The background loop and a manual call: both take the lock step before either reads. -/
def overlapping : List (OverlapEvent ℕ) :=
  [.lock 0, .lock 1, .getPending 0 100 .p4, .getPending 1 100 .p4, .exchange 0 reportAcked,
    .exchange 1 (.failed "Peer did not respond"), .mark 0 1, .mark 1 2]

/-- Both calls send the report, and the second one marks it failed after the first has marked
it synced. -/
theorem overlapping_calls_share_batch :
    ¬ (replay step { outbox := oneReport } (overlapping.take 6)).Exclusive ∧
      ¬ (replay step { outbox := oneReport } (overlapping.take 7)).KeepsSynced
        (replay step { outbox := oneReport } (overlapping.take 8)) := by
  refine ⟨fun h => ?_, fun h => ?_⟩
  · have hboth : ∃ a ∈ ((replay step { outbox := oneReport } (overlapping.take 6)).session 0).batch,
        ∃ b ∈ ((replay step { outbox := oneReport } (overlapping.take 6)).session 1).batch,
          a.opId = b.opId := by decide +kernel
    obtain ⟨a, ha, b, hb, hid⟩ := hboth
    exact h 0 1 (by decide) rfl rfl a ha b hb hid
  · have hrow : ∃ r ∈ (replay step { outbox := oneReport } (overlapping.take 7)).outbox.rows,
        r.syncState = .synced ∧
          ∃ r' ∈ (replay step { outbox := oneReport } (overlapping.take 8)).outbox.rows,
            r'.opId = r.opId ∧ r'.syncState = .failed := by decide +kernel
    obtain ⟨r, hr, hsynced, r', hr', hid, hfailed⟩ := hrow
    exact h r hr hsynced r' hr' hid hfailed

end Overlap
end Dhava
