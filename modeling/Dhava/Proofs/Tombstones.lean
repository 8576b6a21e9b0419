import Dhava.Proofs.LwwOrder

/-! Deletes. A tombstone counts as no record at all when the next operation is resolved:
whatever is not a delete is applied over it, without a look at the clocks. -/

namespace Dhava

open Foundations

namespace ConflictResolver

variable {V : Type}

/-- No live record: the row is missing or a tombstone. -/
def Gone (row : Option (Record V)) : Prop := ∀ r, row = some r → r.deleted = true

def Live (row : Option (Record V)) : Prop := ∃ r, row = some r ∧ r.deleted = false

theorem get_eq_none_iff (s : LocalStore V) (key : Key) :
    s.get key = none ↔ Gone (s.get key true) := by
  rw [LocalStore.get_false]
  unfold Gone
  cases s.get key true with
  | none => simp
  | some r => cases hr : r.deleted <;> simp [Option.filter, hr]

theorem not_gone_of_live {row : Option (Record V)} (h : Live row) : ¬ Gone row := by
  obtain ⟨r, rfl, hr⟩ := h
  intro hg
  simp [hg r rfl] at hr

theorem accepts_gone (self : ConflictResolver) {row : Option (Record V)} (h : Gone row)
    (op : Operation V) : self.accepts row op = true ↔ op.opType ≠ .delete := by
  cases row with
  | none => exact self.accepts_none op
  | some r => exact self.accepts_tombstone (h r rfl) op

theorem live_written (existing : Option (Record V)) {op : Operation V} (h : op.opType ≠ .delete) :
    Live (some (LocalStore.written existing op)) := ⟨_, rfl, by simp [h]⟩

theorem gone_written (existing : Option (Record V)) {op : Operation V} (h : op.opType = .delete) :
    Gone (some (LocalStore.written existing op)) := by
  intro r hr
  obtain rfl := Option.some.inj hr
  simp [h]

/-- A delete that nothing live opposes with a later or concurrent clock leaves no live record. -/
theorem gone_settle_delete (self : ConflictResolver) {row : Option (Record V)} {op : Operation V}
    (hop : op.opType = .delete)
    (hrow : ∀ r, row = some r →
      VectorClock.ofDict r.vectorClock < VectorClock.ofDict op.vectorClock) :
    Gone (self.settle row op) := by
  unfold settle
  split_ifs with hacc
  · exact gone_written _ hop
  · intro r hr
    by_contra hlive
    subst hr
    have hr' : r.deleted = false := by simpa using hlive
    exact hacc ((accepts_live self hr' op).2 (Or.inl (hrow r rfl)))

/-- Anything but a delete leaves a live record over a missing row, a tombstone or a live one. -/
theorem live_settle (self : ConflictResolver) {row : Option (Record V)} {op : Operation V}
    (hop : op.opType ≠ .delete) (hrow : Gone row ∨ Live row) : Live (self.settle row op) := by
  unfold settle
  split_ifs with hacc
  · exact live_written _ hop
  · rcases hrow with hgone | hlive
    · exact absurd ((self.accepts_gone hgone op).2 hop) hacc
    · exact hlive

theorem live_foldl_settle (self : ConflictResolver) {ops : List (Operation V)}
    (hops : ∀ op ∈ ops, op.opType ≠ .delete) {row : Option (Record V)} (hrow : Live row) :
    Live (ops.foldl self.settle row) := by
  induction ops generalizing row with
  | nil => exact hrow
  | cons op rest ih =>
    rw [List.foldl_cons]
    apply ih fun o ho => hops o (by simp [ho])
    exact self.live_settle (hops op (by simp)) (Or.inr hrow)

/-- After a delete, creates, updates and merges leave the record deleted exactly when there
are none of them: how stale they are plays no part. -/
theorem deleted_stays_iff (self : ConflictResolver) (s : LocalStore V) (d : Operation V)
    (hd : d.opType = .delete)
    (hs : ∀ r, s.get d.key true = some r →
      (VectorClock.ofDict r.vectorClock).compare (VectorClock.ofDict d.vectorClock).clocks = .before)
    (ops : List (Operation V)) (hkey : ∀ op ∈ ops, op.key = d.key)
    (hops : ∀ op ∈ ops, op.opType ≠ .delete) :
    (ops.foldl self.process (self.process s d)).get d.key = none ↔ ops = [] := by
  have hgone : Gone (self.settle (s.get d.key true) d) :=
    self.gone_settle_delete hd fun r hr => VectorClock.compare_before.1 (hs r hr)
  rw [get_eq_none_iff, get_foldl_process self d.key ops hkey, get_process_self]
  constructor
  · intro h
    cases ops with
    | nil => rfl
    | cons op rest =>
      have hlive : Live (self.settle (self.settle (s.get d.key true) d) op) :=
        self.live_settle (hops op (by simp)) (Or.inl hgone)
      have hrest : ∀ o ∈ rest, o.opType ≠ .delete := fun o ho => hops o (by simp [ho])
      have hend := self.live_foldl_settle hrest hlive
      exact absurd h (not_gone_of_live hend)
  · rintro rfl
    exact hgone

/-- A delete of one record, for the fixed inputs below. -/
def sampleDelete (nodeId : String) (timestamp : ℚ) (clock : Dict String ℤ) : Operation ℕ where
  opId := "d"
  nodeId
  opType := .delete
  collection := "incidents"
  recordId := "r"
  payload := ∅
  timestamp
  vectorClock := clock
  lamportTimestamp := 2
  enqueuedAt := timestamp

/-- A live record `{a:1}`, its delete `{a:2}`, and then the create and a merge from before it. -/
theorem deleted_stays_example :
    let stored := process { nodeId := "hq" } LocalStore.empty (sampleUpdate "a" 0)
    let d := sampleDelete "a" 1 ((∅ : Dict String ℤ).insert "a" 2)
    let stale := [{ sampleUpdate "a" 0 with opType := .create },
      { sampleUpdate "a" 0 with opType := .merge, opId := "m" }]
    stored.get ("incidents", "r") ≠ none ∧
      (process { nodeId := "hq" } stored d).get ("incidents", "r") = none ∧
      ((stale.foldl (process { nodeId := "hq" }) (process { nodeId := "hq" } stored d)).get
        ("incidents", "r") = none ↔ stale = []) := by
  intro stored d stale
  refine ⟨by decide +kernel, by decide +kernel,
    deleted_stays_iff { nodeId := "hq" } stored d rfl (fun r hr => ?_) stale (by decide) (by decide)⟩
  have hrow : stored.get ("incidents", "r") true =
      some (LocalStore.written none (sampleUpdate "a" 0)) := by decide +kernel
  obtain rfl := Option.some.inj (hrow.symm.trans hr)
  decide +kernel

/-- A replica that has applied update `{a:1}` and delete `{a:2}` is sent the update again. -/
theorem stale_update_resurrects :
    (VectorClock.ofDict (sampleUpdate "a" 0).vectorClock).compare
        (VectorClock.ofDict ((∅ : Dict String ℤ).insert "a" 2)).clocks = .before ∧
      (process { nodeId := "hq" } (process { nodeId := "hq" } LocalStore.empty (sampleUpdate "a" 0))
          (sampleDelete "a" 1 ((∅ : Dict String ℤ).insert "a" 2))).get ("incidents", "r") = none ∧
      (process { nodeId := "hq" }
        (process { nodeId := "hq" } (process { nodeId := "hq" } LocalStore.empty (sampleUpdate "a" 0))
          (sampleDelete "a" 1 ((∅ : Dict String ℤ).insert "a" 2)))
          (sampleUpdate "a" 0)).get ("incidents", "r") ≠ none := by
  decide +kernel

/-- A replica that has applied the delete and then takes the update, and one that has
applied the update and then takes the delete, end alike exactly when the delete does not
win last-write-wins against the update. -/
theorem delete_update_agree_iff (self peer : ConflictResolver) (hplus : peer.plus = self.plus)
    (htol : peer.clockSkewTolerance = self.clockSkewTolerance) (s s' : LocalStore V)
    (d u : Operation V) (hd : d.opType = .delete) (hu : u.opType = .update) (hkey : u.key = d.key)
    (hconc : u.Concurrent d) :
    let rowA := (self.process (s.applyOperation d).1 u).get d.key true
    let rowB := (peer.process (s'.applyOperation u).1 d).get d.key true
    ((∃ r r', rowA = some r ∧ rowB = some r' ∧ r.deleted = false ∧ r'.deleted = false ∧
          r.data = u.payload ∧ r'.data = u.payload) ∨
        ∃ r r', rowA = some r ∧ rowB = some r' ∧ r.deleted = true ∧ r'.deleted = true) ↔
      ¬ d.BeatsLww self.plus self.clockSkewTolerance u := by
  intro rowA rowB
  have hA : rowA = some (LocalStore.written (some (LocalStore.written (s.get d.key true) d)) u) := by
    have hacc := (self.accepts_gone (gone_written (s.get d.key true) hd) u).2 (by simp [hu])
    change (self.process (s.applyOperation d).1 u).get d.key true = _
    rw [← hkey, get_process_self, hkey, LocalStore.get_applyOperation, if_pos rfl, settle, if_pos hacc]
  have hB : rowB = peer.settle (some (LocalStore.written (s'.get u.key true) u)) d := by
    change (peer.process (s'.applyOperation u).1 d).get d.key true = _
    rw [get_process_self, LocalStore.get_applyOperation, if_pos hkey.symm]
  have hshow : Shows (some (LocalStore.written (s'.get u.key true) u)) (some u) :=
    shows_written _ (Or.inr hu)
  have hacc : peer.accepts (some (LocalStore.written (s'.get u.key true) u)) d = true ↔
      d.BeatsLww self.plus self.clockSkewTolerance u := hplus ▸ htol ▸ peer.accepts_of_shows hshow hconc
  rw [hA, hB, settle, ← hacc]
  constructor
  · rintro (⟨r, r', hr, hr', -, hlive, -⟩ | ⟨r, r', hr, -, hdel, -⟩) hwin
    · rw [if_pos hwin] at hr'
      obtain rfl := Option.some.inj hr'
      simp [hd] at hlive
    · obtain rfl := Option.some.inj hr
      simp [hu] at hdel
  · intro hlose
    rw [if_neg hlose]
    exact Or.inl ⟨_, _, rfl, rfl, by simp [hu], by simp [hu],
      by simp [LocalStore.writtenData, hu], by simp [LocalStore.writtenData, hu]⟩

theorem delete_update_agree_example :
    let d := sampleDelete "b" 0 ((∅ : Dict String ℤ).insert "b" 1)
    let u := sampleUpdate "a" 5
    let rowA := (process { nodeId := "hq" } (LocalStore.empty.applyOperation d).1 u).get d.key true
    let rowB := (process { nodeId := "edge" } (LocalStore.empty.applyOperation u).1 d).get d.key true
    ((∃ r r', rowA = some r ∧ rowB = some r' ∧ r.deleted = false ∧ r'.deleted = false ∧
          r.data = u.payload ∧ r'.data = u.payload) ∨
        ∃ r r', rowA = some r ∧ rowB = some r' ∧ r.deleted = true ∧ r'.deleted = true) ↔
      ¬ d.BeatsLww Binary64.sum 1 u :=
  delete_update_agree_iff { nodeId := "hq" } { nodeId := "edge" } rfl rfl LocalStore.empty
    LocalStore.empty _ _ rfl rfl rfl (by decide)

/-- A delete ten seconds later than a concurrent update: the side that had the delete ends
with the update, the side that had the update with a tombstone. -/
theorem delete_update_disagree :
    (sampleUpdate "a" 0).Concurrent (sampleDelete "b" 10 ((∅ : Dict String ℤ).insert "b" 1)) ∧
      ((process { nodeId := "hq" }
          (LocalStore.empty.applyOperation
            (sampleDelete "b" 10 ((∅ : Dict String ℤ).insert "b" 1))).1
          (sampleUpdate "a" 0)).get ("incidents", "r") true).map Record.deleted = some false ∧
      ((process { nodeId := "edge" }
          (LocalStore.empty.applyOperation (sampleUpdate "a" 0)).1
          (sampleDelete "b" 10 ((∅ : Dict String ℤ).insert "b" 1))).get ("incidents", "r") true).map
        Record.deleted = some true := by
  decide +kernel

end ConflictResolver
end Dhava
