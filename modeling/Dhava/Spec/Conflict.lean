import Dhava.Foundations.Run
import Dhava.Spec.Store
import Mathlib.Data.List.Induction

/-! Conflict resolution (`conflict.py`), and the three lines the server and the engine
share: read the row with its tombstone, resolve, apply if the action says so. -/

namespace Dhava

open Foundations

inductive ResolutionAction
  | applyRemote | discardRemote | mergeFields | conflictNotified
  deriving DecidableEq, Repr

def ResolutionAction.value : ResolutionAction → String
  | .applyRemote => "apply_remote"
  | .discardRemote => "discard_remote"
  | .mergeFields => "merge_fields"
  | .conflictNotified => "conflict_notified"

def Comparison.value : Comparison → String
  | .before => "before" | .after => "after" | .equal => "equal" | .concurrent => "concurrent"

/-- `comparison` is `none` for the text `non_existent`. -/
structure Resolution where
  action : ResolutionAction
  reason : String
  winner : String
  localVectorClock : Option (Dict String ℤ)
  remoteVectorClock : Option (Dict String ℤ)
  comparison : Option Comparison
  localTimestamp : Option ℚ
  remoteTimestamp : ℚ
  tiebreaker : Option String
  auditDetail : ConflictDetail

/-- `resolution.action in (APPLY_REMOTE, MERGE_FIELDS)`. -/
def Resolution.applies (r : Resolution) : Bool := r.action = .applyRemote || r.action = .mergeFields

structure ConflictResolver where
  nodeId : String
  clockSkewTolerance : ℚ := 1
  plus : RoundedSum := Binary64.sum

namespace ConflictResolver

variable {V : Type}

/-- The action of every branch that takes the remote operation. -/
def takeRemote (remoteOp : Operation V) : ResolutionAction :=
  if remoteOp.opType = .merge then .mergeFields else .applyRemote

/-- Case 1: no local record, or a tombstone. -/
def resolveNonExistent (localRecord : Option (Record V)) (remoteOp : Operation V) : Resolution :=
  let (action, reason, winner) :=
    if remoteOp.opType = .delete then
      (ResolutionAction.discardRemote,
        "Remote delete for non-existent or already deleted local record", "local")
    else
      (takeRemote remoteOp, "No active local record exists, applying remote operation", "remote")
  { action, reason, winner
    localVectorClock := localRecord.map Record.vectorClock
    remoteVectorClock := some remoteOp.vectorClock
    comparison := none
    localTimestamp := localRecord.map Record.lastModified
    remoteTimestamp := remoteOp.timestamp
    tiebreaker := none
    auditDetail :=
      { collection := remoteOp.collection, recordId := remoteOp.recordId
        remoteOpId := remoteOp.opId, resolution := action.value, reason
        comparison := "non_existent", remoteTimestamp := remoteOp.timestamp
        localNode := none, remoteNode := none, winner := none
        localTimestamp := none, tiebreaker := none } }

/-- Last write wins, with the node id inside the skew window. -/
def resolveConcurrent (self : ConflictResolver) (localRecord : Record V) (remoteOp : Operation V) :
    ResolutionAction × String × String :=
  let localTs := localRecord.lastModified
  let remoteTs := remoteOp.timestamp
  if remoteTs > self.plus.add localTs self.clockSkewTolerance then
    (takeRemote remoteOp, "remote", "remote_timestamp_newer")
  else if localTs > self.plus.add remoteTs self.clockSkewTolerance then
    (.discardRemote, "local", "local_timestamp_newer")
  else if remoteOp.nodeId > localRecord.lastModifiedBy then
    (takeRemote remoteOp, "remote",
      s!"node_id_tiebreaker: {remoteOp.nodeId} > {localRecord.lastModifiedBy}")
  else
    (.discardRemote, "local",
      s!"node_id_tiebreaker: {localRecord.lastModifiedBy} >= {remoteOp.nodeId}")

/-- Case 2: a live local record. -/
def resolveLive (self : ConflictResolver) (localRecord : Record V) (remoteOp : Operation V) :
    Resolution :=
  let localVc := VectorClock.ofDict localRecord.vectorClock
  let remoteVc := VectorClock.ofDict remoteOp.vectorClock
  let comparison := localVc.compare remoteVc.clocks
  let (action, winner, tiebreaker, reason) : ResolutionAction × String × Option String × String :=
    match comparison with
    | .after => (.discardRemote, "local", none,
        "Local record is causally after remote operation (remote is stale)")
    | .before => (takeRemote remoteOp, "remote", none,
        "Remote operation is causally after local record")
    | .equal => (.discardRemote, "local", none, "Records have identical causal history")
    | .concurrent =>
      let (action, winner, tiebreaker) := self.resolveConcurrent localRecord remoteOp
      (action, winner, some tiebreaker, s!"Concurrent modification resolved by LWW ({tiebreaker})")
  { action, reason, winner
    localVectorClock := some localRecord.vectorClock
    remoteVectorClock := some remoteOp.vectorClock
    comparison := some comparison
    localTimestamp := some localRecord.lastModified
    remoteTimestamp := remoteOp.timestamp
    tiebreaker
    auditDetail :=
      { collection := remoteOp.collection, recordId := remoteOp.recordId
        remoteOpId := remoteOp.opId, resolution := action.value, reason
        comparison := comparison.value, remoteTimestamp := remoteOp.timestamp
        localNode := some localRecord.lastModifiedBy, remoteNode := some remoteOp.nodeId
        winner := some winner, localTimestamp := some localRecord.lastModified, tiebreaker } }

def resolve (self : ConflictResolver) (localRecord : Option (Record V)) (remoteOp : Operation V) :
    Resolution :=
  match localRecord with
  | none => resolveNonExistent none remoteOp
  | some r => if r.deleted then resolveNonExistent (some r) remoteOp else self.resolveLive r remoteOp

def accepts (self : ConflictResolver) (existing : Option (Record V)) (op : Operation V) : Bool :=
  (self.resolve existing op).applies

/-- Get with tombstones, resolve, apply if the action says so. -/
def process (self : ConflictResolver) (s : LocalStore V) (op : Operation V) : LocalStore V :=
  if self.accepts (s.get op.key true) op then (s.applyOperation op).1 else s

/-- What `process` does to the row under the operation's key. -/
def settle (self : ConflictResolver) (existing : Option (Record V)) (op : Operation V) :
    Option (Record V) :=
  if self.accepts existing op then some (LocalStore.written existing op) else existing

/-- The remote operation wins last-write-wins against the record. -/
def WinsLww (self : ConflictResolver) (op : Operation V) (r : Record V) : Prop :=
  op.timestamp > self.plus.add r.lastModified self.clockSkewTolerance ∨
    (¬ r.lastModified > self.plus.add op.timestamp self.clockSkewTolerance ∧
      op.nodeId > r.lastModifiedBy)

instance (self : ConflictResolver) (op : Operation V) (r : Record V) :
    Decidable (self.WinsLww op r) := inferInstanceAs (Decidable (_ ∨ (_ ∧ _)))

/-! ### Which operations are applied -/

theorem applies_takeRemote (op : Operation V) :
    takeRemote op = .applyRemote ∨ takeRemote op = .mergeFields := by
  unfold takeRemote
  split_ifs
  · exact Or.inr rfl
  · exact Or.inl rfl

theorem applies_resolveNonExistent (r : Option (Record V)) (op : Operation V) :
    (resolveNonExistent r op).applies = true ↔ op.opType ≠ .delete := by
  unfold resolveNonExistent Resolution.applies
  rcases applies_takeRemote op with h | h <;> by_cases hd : op.opType = .delete <;> simp [hd, h]

theorem accepts_none (self : ConflictResolver) (op : Operation V) :
    self.accepts none op = true ↔ op.opType ≠ .delete :=
  applies_resolveNonExistent none op

theorem accepts_tombstone (self : ConflictResolver) {r : Record V} (hr : r.deleted = true)
    (op : Operation V) : self.accepts (some r) op = true ↔ op.opType ≠ .delete := by
  unfold accepts resolve
  simp only [hr, if_true]
  exact applies_resolveNonExistent _ op

theorem applies_resolveConcurrent (self : ConflictResolver) (r : Record V) (op : Operation V) :
    ((self.resolveConcurrent r op).1 = .applyRemote ∨
      (self.resolveConcurrent r op).1 = .mergeFields) ↔ self.WinsLww op r := by
  have ht := applies_takeRemote op
  unfold resolveConcurrent WinsLww
  by_cases h1 : op.timestamp > self.plus.add r.lastModified self.clockSkewTolerance
  · simp only [h1, if_true, true_or, iff_true]
    exact ht
  · by_cases h2 : r.lastModified > self.plus.add op.timestamp self.clockSkewTolerance
    · simp [h1, h2]
    · by_cases h3 : op.nodeId > r.lastModifiedBy
      · simp only [h1, h2, h3, if_true, if_false, not_false_eq_true, and_self, or_true, iff_true]
        exact ht
      · simp [h1, h2, h3]

theorem accepts_live (self : ConflictResolver) {r : Record V} (hr : r.deleted = false)
    (op : Operation V) :
    self.accepts (some r) op = true ↔
      VectorClock.ofDict r.vectorClock < VectorClock.ofDict op.vectorClock ∨
        (VectorClock.ofDict r.vectorClock).compare (VectorClock.ofDict op.vectorClock).clocks =
          .concurrent ∧ self.WinsLww op r := by
  have hc := self.applies_resolveConcurrent r op
  rw [← VectorClock.compare_before]
  unfold accepts resolve
  simp only [hr, Bool.false_eq_true, if_false]
  unfold resolveLive Resolution.applies
  rw [Bool.or_eq_true, decide_eq_true_eq, decide_eq_true_eq]
  cases h : (VectorClock.ofDict r.vectorClock).compare (VectorClock.ofDict op.vectorClock).clocks with
  | before => simpa [h] using applies_takeRemote op
  | after => simp [h]
  | equal => simp [h]
  | concurrent => simpa [h] using hc

theorem accepts_concurrent (self : ConflictResolver) {r : Record V} (hr : r.deleted = false)
    {op : Operation V}
    (hc : (VectorClock.ofDict r.vectorClock).compare (VectorClock.ofDict op.vectorClock).clocks =
      .concurrent) : self.accepts (some r) op = true ↔ self.WinsLww op r := by
  have hnlt : ¬ VectorClock.ofDict r.vectorClock < VectorClock.ofDict op.vectorClock :=
    fun h => (VectorClock.compare_concurrent.1 hc).1 h.le
  rw [self.accepts_live hr, or_iff_right hnlt]
  exact and_iff_right hc

theorem comparison_live (self : ConflictResolver) {r : Record V} (hr : r.deleted = false)
    (op : Operation V) :
    (self.resolve (some r) op).comparison =
      some ((VectorClock.ofDict r.vectorClock).compare (VectorClock.ofDict op.vectorClock).clocks) := by
  unfold resolve
  simp only [hr, Bool.false_eq_true, if_false]
  rfl

theorem get_process (self : ConflictResolver) (s : LocalStore V) (op : Operation V) (key : Key) :
    (self.process s op).get key true =
      if key = op.key then self.settle (s.get op.key true) op else s.get key true := by
  unfold process settle
  split_ifs with h hk hk
  · rw [LocalStore.get_applyOperation, if_pos hk]
  · rw [LocalStore.get_applyOperation, if_neg hk]
  · rw [hk]
  · rfl

theorem get_process_self (self : ConflictResolver) (s : LocalStore V) (op : Operation V) :
    (self.process s op).get op.key true = self.settle (s.get op.key true) op := by
  rw [get_process, if_pos rfl]

/-- A processed operation is discarded, or raises the version of its row. -/
theorem process_cases (self : ConflictResolver) (s : LocalStore V) (op : Operation V) :
    self.process s op = s ∨ s.versions < (self.process s op).versions := by
  unfold process
  split_ifs
  · exact Or.inr (s.versions_lt_applyOperation op)
  · exact Or.inl rfl

theorem process_eq_self_iff (self : ConflictResolver) (s : LocalStore V) (op : Operation V) :
    self.process s op = s ↔ self.accepts (s.get op.key true) op = false := by
  unfold process
  split_ifs with h
  · rw [h]
    exact iff_of_false (s.applyOperation_ne op) (by decide)
  · exact iff_of_true rfl (Bool.eq_false_iff.2 h)

theorem versions_le_process (self : ConflictResolver) (s : LocalStore V) (op : Operation V) :
    s.versions ≤ (self.process s op).versions := by
  rcases self.process_cases s op with h | h
  · rw [h]
  · exact h.le

/-- A list of operations leaves a store alone exactly if the store discards each of them. -/
theorem foldl_process_eq_self_iff (self : ConflictResolver) (s : LocalStore V)
    (ops : List (Operation V)) :
    ops.foldl self.process s = s ↔ ∀ op ∈ ops, self.accepts (s.get op.key true) op = false := by
  have h := replay_eq_self_iff LocalStore.versions (self.process_cases (V := V)) s ops
  simp only [process_eq_self_iff] at h
  exact h

/-- Processing operations on one key is a fold over the row under that key. -/
theorem get_foldl_process (self : ConflictResolver) (key : Key) (ops : List (Operation V))
    (hops : ∀ op ∈ ops, op.key = key) (s : LocalStore V) :
    (ops.foldl self.process s).get key true = ops.foldl self.settle (s.get key true) := by
  induction ops generalizing s with
  | nil => rfl
  | cons op rest ih =>
    obtain rfl : op.key = key := hops op (by simp)
    rw [List.foldl_cons, List.foldl_cons, ih (fun o ho => hops o (by simp [ho])), get_process_self]

/-- The row under a key depends on the operations on this key only. -/
theorem get_foldl_process_filter (self : ConflictResolver) (key : Key) (ops : List (Operation V))
    (s : LocalStore V) :
    (ops.foldl self.process s).get key true =
      (ops.filter (·.key = key)).foldl self.settle (s.get key true) := by
  induction ops generalizing s with
  | nil => rfl
  | cons op rest ih =>
    rw [List.foldl_cons, ih, get_process, List.filter_cons]
    by_cases hk : key = op.key
    · subst hk
      simp
    · rw [if_neg hk, if_neg (by simpa using Ne.symm hk)]

/-- The row after processing a list is the old one, or one that an operation of the list
under its key wrote. -/
theorem get_foldl_process_cases (self : ConflictResolver) (ops : List (Operation V))
    (s : LocalStore V) {key : Key} {r : Record V}
    (h : (ops.foldl self.process s).get key true = some r) :
    s.get key true = some r ∨
      ∃ op ∈ ops, op.key = key ∧ ∃ existing, r = LocalStore.written existing op := by
  induction ops using List.reverseRecOn generalizing r with
  | nil => exact Or.inl h
  | append_singleton l op ih =>
    rw [List.foldl_append, List.foldl_cons, List.foldl_nil, get_process] at h
    have hold : (l.foldl self.process s).get key true = some r → s.get key true = some r ∨
        ∃ o ∈ l ++ [op], o.key = key ∧ ∃ existing, r = LocalStore.written existing o := by
      intro hl
      rcases ih hl with h' | ⟨o, ho, hk, hw⟩
      · exact Or.inl h'
      · exact Or.inr ⟨o, List.mem_append_left _ ho, hk, hw⟩
    split_ifs at h with hkey
    · unfold settle at h
      split_ifs at h
      · exact Or.inr ⟨op, by simp, hkey.symm, _, (Option.some.inj h).symm⟩
      · exact hold (hkey ▸ h)
    · exact hold h

end ConflictResolver
end Dhava
