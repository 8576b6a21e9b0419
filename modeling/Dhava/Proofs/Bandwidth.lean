import Dhava.Foundations.Selection
import Dhava.Spec.Engine

/-! How the batch of a session shrinks with the bandwidth. Size and cutoff come from two
ladders of thresholds, and both go up with the estimate: a narrower link sends an initial
part of what a wider one sends. -/

namespace Dhava

open Foundations

variable {V : Type}

namespace OutboxQueue

theorem selects_cutoff (m : Priority) (op : Operation V) :
    selects none (some m) none op = true ↔ op.syncState = .pending ∧ op.priority.level ≤ m.level := by
  simp [selects, Priority.mem_all]

/-- A lower cutoff keeps the rows of its levels among those a higher one selects. -/
theorem filter_selects_of_level_le (q : OutboxQueue V) {m m' : Priority} (h : m.level ≤ m'.level) :
    q.rows.filter (selects none (some m) none) =
      (q.rows.filter (selects none (some m') none)).filter fun op => op.priority.level ≤ m.level := by
  rw [List.filter_filter]
  refine List.filter_congr fun op _ => ?_
  rw [Bool.eq_iff_iff, Bool.and_eq_true, selects_cutoff, selects_cutoff, decide_eq_true_eq]
  refine ⟨fun hop => ⟨hop.2, hop.1, hop.2.trans h⟩, fun hop => ⟨hop.2.1, hop.1⟩⟩

/-- With a lower cutoff and a smaller limit an initial part of the batch is left. -/
theorem getPending_initial (q : OutboxQueue V) {m m' : Priority} (hm : m.level ≤ m'.level) {n n' : ℤ}
    (hn : 0 ≤ n) (hnn : n ≤ n') : q.getPending n none (some m) <+: q.getPending n' none (some m') := by
  have hsorted := List.pairwise_insertionSort SendsBefore (q.rows.filter (selects none (some m') none))
  unfold getPending limited
  rw [if_neg (by omega), if_neg (by omega), filter_selects_of_level_le q hm, ← filter_insertionSort]
  refine take_initial_of_le (filter_initial (hsorted.imp fun {a b} hab hb => ?_)) (by omega)
  -- whatever is sent before a row of the lower levels is itself of these levels
  have hle : a.priority.level ≤ b.priority.level := by
    rcases hab with h | h
    · exact h.le
    · exact h.1.le
  rw [decide_eq_true_eq] at hb ⊢
  exact hle.trans hb

end OutboxQueue

namespace Engine

theorem calculateBatchSize_mono (e : Engine V) {b₁ b₂ : ℤ} (h : b₁ ≤ b₂) :
    e.calculateBatchSize b₁ ≤ e.calculateBatchSize b₂ := by
  unfold calculateBatchSize
  split_ifs <;> omega

theorem calculateBatchSize_nonneg (e : Engine V) (h : 0 ≤ e.config.batchSize) (b : ℤ) :
    0 ≤ e.calculateBatchSize b := by
  unfold calculateBatchSize
  split_ifs <;> omega

theorem calculatePriorityCutoff_mono (e : Engine V) {b₁ b₂ : ℤ} (h : b₁ ≤ b₂) :
    (e.calculatePriorityCutoff b₁).level ≤ (e.calculatePriorityCutoff b₂).level := by
  unfold calculatePriorityCutoff
  split_ifs <;> first | omega | decide

/-- A pending operation more urgent than one of the batch is in the batch. -/
theorem mem_pendingBatch_of_level_lt (e : Engine V) (b : ℤ) {a c : Operation V}
    (ha : a ∈ e.outbox.rows) (hpending : a.syncState = .pending) (hc : c ∈ e.pendingBatch b)
    (hlt : a.priority.level < c.priority.level) : a ∈ e.pendingBatch b := by
  have hsel := OutboxQueue.selects_of_level_le (OutboxQueue.mem_getPending hc).2 hpending hlt.le
  have hnot : ¬ OutboxQueue.SendsBefore c a := by
    rintro (h | h) <;> omega
  obtain ⟨pre, post, hsplit⟩ := List.append_of_mem hc
  rw [hsplit]
  exact List.mem_append_left _ (OutboxQueue.mem_ahead_getPending hsplit ha hsel hnot)

/-- The batch of a narrower link is an initial part of the batch of a wider one, and no
batch passes over a more urgent operation. -/
theorem bandwidth_trims_tail (e : Engine V) (hsize : 0 ≤ e.config.batchSize) {b₁ b₂ : ℤ}
    (hb : b₁ ≤ b₂) :
    e.pendingBatch b₁ <+: e.pendingBatch b₂ ∧
      ∀ b, ∀ c ∈ e.pendingBatch b, ∀ a ∈ e.outbox.rows, a.syncState = .pending →
        a.priority.level < c.priority.level → a ∈ e.pendingBatch b := by
  refine ⟨?_, fun b c hc a ha hpending hlt => e.mem_pendingBatch_of_level_lt b ha hpending hc hlt⟩
  unfold pendingBatch
  apply OutboxQueue.getPending_initial
  · exact e.calculatePriorityCutoff_mono hb
  · exact e.calculateBatchSize_nonneg hsize b₁
  · exact e.calculateBatchSize_mono hb

/-- A write of one tier, for the fixed inputs below. -/
def sampleWrite (opId : String) (priority : Priority) (now : ℚ) : LocalCall ℕ where
  opType := .create
  collection := "incidents"
  recordId := opId
  priority
  opId
  now
  enqueuedAt := now

/-- Two alerts among routine and bulk writes: the modem takes the alerts alone. -/
theorem bandwidth_trims_tail_example :
    let e := [sampleWrite "bulk" .p3 0, sampleWrite "alert" .p0 1, sampleWrite "routine" .p2 2,
      sampleWrite "mayday" .p0 3].foldl (fun e c => (e.call c).1) (Engine.create "edge")
    (e.pendingBatch 9600).map Operation.opId = ["alert", "mayday"] ∧
      (e.pendingBatch 2000000).map Operation.opId = ["alert", "mayday", "routine", "bulk"] ∧
      e.pendingBatch 9600 <+: e.pendingBatch 2000000 ∧
      ∀ b, ∀ c ∈ e.pendingBatch b, ∀ a ∈ e.outbox.rows, a.syncState = .pending →
        a.priority.level < c.priority.level → a ∈ e.pendingBatch b := by
  intro e
  refine ⟨by decide +kernel, by decide +kernel, ?_⟩
  exact bandwidth_trims_tail e (by decide +kernel) (by decide)

end Engine
end Dhava
