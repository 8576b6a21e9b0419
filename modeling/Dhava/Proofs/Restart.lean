import Dhava.Foundations.Run
import Dhava.Proofs.LamportCounter
import Dhava.Spec.Restart

/-! Lamport timestamps over the life of a database. Within one process they only go up. The
next process starts over at 0, whatever the tables hold, and catches up by what it handles. -/

namespace Dhava

open Foundations

variable {V : Type}

/-- What the Lamport counter is shown of it. -/
def Handled.shown : Handled V → Option ℤ
  | .received op => some op.lamportTimestamp
  | _ => none

namespace Lifetime

/-- The counter is what the process has counted, no less than any timestamp it has handled. -/
structure Counted (l : Lifetime V) : Prop where
  counter : l.engine.lamportCounter = (l.current.map Handled.shown).foldl climb 0
  reached : ∀ op ∈ l.current.filterMap Handled.op, op.lamportTimestamp ≤ l.engine.lamportCounter

theorem counted_boot (nodeId : String) (config : EngineConfig) (localStore : LocalStore V)
    (outbox : OutboxQueue V) (audit : List AuditEntry) (earlier : List (Operation V)) :
    (boot nodeId config localStore outbox audit earlier).Counted :=
  ⟨rfl, fun _ h => by cases h⟩

theorem Counted.call {l : Lifetime V} (h : l.Counted) (c : LocalCall V) (ends : WriteStep → TxEnd) :
    (l.call c ends).Counted := by
  have hcounter : (l.call c ends).engine.lamportCounter = l.engine.lamportCounter + 1 :=
    Engine.lamportCounter_callUnder l.engine c ends
  refine ⟨?_, fun op hop => ?_⟩
  · have hshown : Handled.shown (if ends .readClock = .committed then
        Handled.created (l.engine.stamp c).2 else .refused) = none := by
      split_ifs <;> rfl
    rw [hcounter, h.counter, Lifetime.call, List.map_append, List.map_singleton, hshown,
      List.foldl_append]
    exact congrArg (· + 1) (max_self _).symm
  · rw [hcounter]
    simp only [Lifetime.call, List.filterMap_append, List.mem_append] at hop
    rcases hop with hold | hnew
    · exact (h.reached op hold).trans (lt_add_one _).le
    · split_ifs at hnew
      · obtain rfl := List.mem_singleton.1 hnew
        exact le_refl _
      · cases hnew

theorem Counted.sync {l : Lifetime V} (h : l.Counted) (sessionId : String) (link : Option ℤ)
    (now : ℚ) (faults : ℕ → Option Fault) (x : Exchange V) :
    (l.sync sessionId link now faults x).Counted := by
  have hcounter : (l.sync sessionId link now faults x).engine.lamportCounter =
      ((l.engine.pulled sessionId link now faults x).processed.map
        fun op => some op.lamportTimestamp).foldl climb l.engine.lamportCounter :=
    (Engine.lamportCounter_syncNow l.engine sessionId link now faults x).trans
      (Engine.lamportCounter_pulled l.engine sessionId link now faults x)
  refine ⟨?_, fun op hop => ?_⟩
  · rw [hcounter, h.counter, Lifetime.sync, List.map_append, List.foldl_append, List.map_map]
    rfl
  · rw [hcounter]
    simp only [Lifetime.sync, List.filterMap_append, List.mem_append] at hop
    rcases hop with hold | hnew
    · exact (h.reached op hold).trans (le_foldl_climb _ _)
    · rw [List.mem_filterMap] at hnew
      obtain ⟨handled, hmem, hop⟩ := hnew
      obtain ⟨received, hreceived, rfl⟩ := List.mem_map.1 hmem
      cases hop
      exact (lt_foldl_climb _ (List.mem_map.2 ⟨op, hreceived, rfl⟩)).le

theorem Counted.step {l : Lifetime V} (h : l.Counted) (ev : LifetimeEvent V) : (l.step ev).Counted := by
  cases ev with
  | call c ends => exact h.call c ends
  | sync sessionId link now faults x => exact h.sync sessionId link now faults x
  | restart => exact counted_boot _ _ _ _ _ _

/-- The process has handled `n` things, or something received since it started has brought it
this far with what came after. -/
def CountedTo (l : Lifetime V) (n : ℤ) : Prop :=
  n ≤ l.current.length ∨
    ∃ before op after, l.current = before ++ .received op :: after ∧
      n ≤ op.lamportTimestamp + 1 + after.length

theorem Counted.le_counter_iff {l : Lifetime V} (h : l.Counted) (n : ℤ) :
    n ≤ l.engine.lamportCounter ↔ l.CountedTo n := by
  rw [h.counter, ← not_lt, foldl_climb_lt_iff, CountedTo, not_and_or, not_lt, zero_add, List.length_map]
  refine or_congr_right ?_
  push Not
  constructor
  · rintro ⟨earlier, m, later, hsplit, hle⟩
    obtain ⟨before, rest, hcurrent, rfl, hrest⟩ := List.map_eq_append_iff.1 hsplit
    obtain ⟨handled, after, rfl, hshown, rfl⟩ := List.map_eq_cons_iff.1 hrest
    rw [List.length_map] at hle
    cases handled with
    | created op => cases hshown
    | refused => cases hshown
    | received op =>
      cases hshown
      exact ⟨before, op, after, hcurrent, hle⟩
  · rintro ⟨before, op, after, hcurrent, hle⟩
    refine ⟨before.map Handled.shown, op.lamportTimestamp, after.map Handled.shown, ?_, ?_⟩
    · rw [hcurrent, List.map_append, List.map_cons]
      rfl
    · rwa [List.length_map]

/-- The operation a call creates comes after all the node has created or received. -/
def StrictlyLater (l : Lifetime V) : LifetimeEvent V → Prop
  | .call c ends => ends .readClock = .committed →
    ∀ op ∈ l.ops, op.lamportTimestamp < (l.engine.stamp c).2.lamportTimestamp
  | _ => True

/-- Before it creates an operation the process has counted up to all that earlier ones handled. -/
def CaughtUp (l : Lifetime V) : LifetimeEvent V → Prop
  | .call _ ends => ends .readClock = .committed →
    ∀ op ∈ l.earlier, l.CountedTo op.lamportTimestamp
  | _ => True

theorem Counted.strictlyLater_iff {l : Lifetime V} (h : l.Counted) (ev : LifetimeEvent V) :
    l.StrictlyLater ev ↔ l.CaughtUp ev := by
  cases ev with
  | sync sessionId link now faults x => exact Iff.rfl
  | restart => exact Iff.rfl
  | call c ends =>
    have hlater : ∀ n : ℤ, n < (l.engine.stamp c).2.lamportTimestamp ↔ n ≤ l.engine.lamportCounter :=
      fun n => Int.lt_add_one_iff
    refine imp_congr_right fun _ => ?_
    simp only [hlater, ops, List.forall_mem_append, h.le_counter_iff]
    exact and_iff_left fun op hop => (h.le_counter_iff _).1 (h.reached op hop)

theorem Counted.admitted_iff {l : Lifetime V} (h : l.Counted) (evs : List (LifetimeEvent V)) :
    Admitted Lifetime.step StrictlyLater l evs ↔ Admitted Lifetime.step CaughtUp l evs :=
  admitted_congr (I := Counted) h (fun _ ev _ h => h.step ev) fun _ ev _ h => h.strictlyLater_iff ev

/-- The first call after a restart is later than the past only where nothing in it was counted. -/
theorem caughtUp_restart_iff (l : Lifetime V) (c : LocalCall V) {ends : WriteStep → TxEnd}
    (hread : ends .readClock = .committed) :
    l.restart.CaughtUp (.call c ends) ↔ ∀ op ∈ l.ops, op.lamportTimestamp ≤ 0 := by
  refine ⟨fun h op hop => ?_, fun h _ op hop => Or.inl (h op hop)⟩
  rcases h hread op hop with hle | ⟨before, received, after, hsplit, -⟩
  · exact hle
  · exact absurd hsplit.symm (List.append_ne_nil_of_right_ne_nil before (List.cons_ne_nil _ _))

/-- The first process on a database never has to catch up. -/
theorem strictlyLater_of_one_process (nodeId : String) (config : EngineConfig)
    {evs : List (LifetimeEvent V)} (hone : .restart ∉ evs) :
    Admitted step StrictlyLater (create nodeId config) evs := by
  refine (Counted.admitted_iff (counted_boot _ _ _ _ _ _) evs).2 ?_
  refine (admitted_congr (I := fun l => l.earlier = []) rfl (fun l ev hev hnil => ?_)
    fun l ev _ hnil => ?_).1 (admitted_true _ evs)
  · cases ev with
    | call c ends => exact hnil
    | sync sessionId link now faults x => exact hnil
    | restart => exact absurd hev hone
  · refine iff_of_true trivial ?_
    cases ev with
    | call c ends =>
      intro _ op hop
      rw [hnil] at hop
      cases hop
    | sync sessionId link now faults x => exact trivial
    | restart => exact trivial

end Lifetime

/-- Over the life of a database every operation is created later than all that the node has
handled before, exactly if each process that creates one has caught up with the earlier ones. -/
theorem Lifetime.created_later_iff (nodeId : String) (config : EngineConfig)
    (localStore : LocalStore V) (outbox : OutboxQueue V) (audit : List AuditEntry)
    (earlier : List (Operation V)) (evs : List (LifetimeEvent V)) :
    Admitted step StrictlyLater (boot nodeId config localStore outbox audit earlier) evs ↔
      Admitted step CaughtUp (boot nodeId config localStore outbox audit earlier) evs :=
  (counted_boot nodeId config localStore outbox audit earlier).admitted_iff evs

/-- Two commands that write one record each. -/
def twoCommands : List (LifetimeEvent ℕ) :=
  [ .call { opType := .create, collection := "reports", recordId := "r1", opId := "1", now := 1,
            enqueuedAt := 1 } fun _ => .committed,
    .restart,
    .call { opType := .create, collection := "reports", recordId := "r2", opId := "2", now := 2,
            enqueuedAt := 2 } fun _ => .committed ]

/-- Both operations are created with the Lamport timestamp 1. -/
theorem restart_repeats_timestamp :
    (replay Lifetime.step (Lifetime.create "node-01") twoCommands).ops.map
        Operation.lamportTimestamp = [1, 1] ∧
      ¬ Admitted Lifetime.step Lifetime.StrictlyLater (Lifetime.create "node-01") twoCommands := by
  refine ⟨by decide +kernel, ?_⟩
  rintro ⟨-, -, hsecond, -⟩
  have hlater := hsecond rfl _ List.mem_cons_self
  exact absurd hlater (by decide +kernel)

end Dhava
