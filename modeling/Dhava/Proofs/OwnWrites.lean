import Dhava.Proofs.History

/-! The clocks of a node's own operations on a record. The next clock is counted on top of
whatever clock the row carries, and a pulled operation can have replaced that. -/

namespace Dhava

open Foundations

variable {V : Type}

namespace Node

/-- Of two own operations on a record the first compares `before` the second, and the own
counter has grown. -/
def OwnOrdered (node : Node V) : Prop :=
  node.ops.Pairwise fun a b => a.key = b.key →
    (VectorClock.ofDict a.vectorClock).compare (VectorClock.ofDict b.vectorClock).clocks = .before ∧
      (VectorClock.ofDict a.vectorClock).get node.engine.nodeId <
        (VectorClock.ofDict b.vectorClock).get node.engine.nodeId

/-- At a local write the stored clock of the record has the clocks of all earlier own
operations on it below it. -/
def WritesOnTop (node : Node V) : NodeEvent V → Prop
  | .call c => ∀ op ∈ node.ops, op.key = c.key →
      VectorClock.ofDict op.vectorClock ≤ node.engine.storedClock c.key
  | .sync .. => True

instance (node : Node V) : DecidablePred node.WritesOnTop
  | .call c => inferInstanceAs (Decidable (∀ op ∈ node.ops, op.key = c.key →
      VectorClock.ofDict op.vectorClock ≤ node.engine.storedClock c.key))
  | .sync .. => inferInstanceAs (Decidable True)

theorem ownOrdered_create (nodeId : String) (config : EngineConfig) :
    (create nodeId config : Node V).OwnOrdered := List.Pairwise.nil

/-- A clock lies below the next own clock, with a smaller own counter, exactly when it lies
below the stored clock. -/
theorem before_stamped_iff (e : Engine V) (c : LocalCall V) (d : VectorClock) :
    (d.compare (VectorClock.ofDict (e.stamped c).vectorClock).clocks = .before ∧
        d.get e.nodeId < (VectorClock.ofDict (e.stamped c).vectorClock).get e.nodeId) ↔
      d ≤ e.storedClock c.key := by
  rw [VectorClock.compare_before, VectorClock.lt_iff, Engine.get_stamped_clock,
    VectorClock.le_iff]
  exact (le_iff_lt_bump e.nodeId d.get (e.storedClock c.key).get).symm

theorem ownOrdered_call_iff {node : Node V} (hrows : node.RowsIssued) {c : LocalCall V}
    (hc : node.Fresh (.call c)) (h : node.OwnOrdered) :
    (node.call c).OwnOrdered ↔ node.WritesOnTop (.call c) := by
  have hid : (node.call c).engine.nodeId = node.engine.nodeId :=
    Engine.nodeId_of_identity (node.identity_step (.call c))
  have hops : (node.call c).ops = node.ops ++ [node.engine.stamped c] := by
    rw [ops, (call_fresh hrows hc).1, List.map_append]
    rfl
  unfold OwnOrdered WritesOnTop
  rw [hid, hops, List.pairwise_append]
  constructor
  · rintro ⟨-, -, hnew⟩ op hop hkey
    exact (before_stamped_iff _ c _).1 (hnew op hop _ (List.mem_singleton_self _) hkey)
  · intro htop
    refine ⟨h, List.pairwise_singleton _ _, fun op hop b hb hkey => ?_⟩
    obtain rfl := List.mem_singleton.1 hb
    exact (before_stamped_iff _ c _).2 (htop op hop hkey)

/-- In every run, whatever is pulled, the own operations on each record stay ordered exactly
when every local write is stamped on top of all earlier own operations on its record. -/
theorem always_ownOrdered_iff (nodeId : String) (config : EngineConfig) (evs : List (NodeEvent V))
    (hfresh : Admitted step Fresh (create nodeId config) evs) :
    (∀ evs', evs' <+: evs → (replay step (create nodeId config) evs').OwnOrdered) ↔
      Admitted step WritesOnTop (create nodeId config) evs := by
  refine always_iff_admitted (ownOrdered_create nodeId config) ?_ hfresh
  intro evs ev hok _ hord
  have hrows : (replay step (create nodeId config) evs).RowsIssued :=
    (admitted_true _ evs).invariant (rowsIssued_create nodeId config)
      fun node e hn _ => rowsIssued_step hn e
  cases ev with
  | call c => exact ownOrdered_call_iff hrows ((admitted_concat _ _).1 hok).2 hord
  | sync sessionId link now faults x =>
    have hid := Engine.nodeId_of_identity ((replay step (create nodeId config) evs).identity_step
      (.sync sessionId link now faults x))
    refine ⟨fun _ => trivial, fun _ => ?_⟩
    unfold OwnOrdered
    rw [hid]
    exact hord

/-- Calls and pulled operations on one record, for the fixed inputs below. -/
def sampleCall (opId : String) (now : ℚ) : LocalCall ℕ :=
  { opType := .update, collection := "incidents", recordId := "r", opId, now, enqueuedAt := now }

def samplePull (op : Operation ℕ) : NodeEvent ℕ :=
  .sync "1" (some 2000000) 10 noFaults (.response
    { nodeId := "hq", sessionId := "1", status := "ok", ackedOpIds := []
      encryptedPayload := .packed [op.toDict] })

/-- An update by node `a`, five seconds in. -/
def sampleRemote : Operation ℕ :=
  { opId := "srv", nodeId := "a", opType := .update, collection := "incidents", recordId := "r"
    payload := ∅, timestamp := 5, vectorClock := (∅ : Dict String ℤ).insert "a" 1
    lamportTimestamp := 1, enqueuedAt := 5 }

/-- What is pulled between the two calls was written on top of the first of them. -/
theorem always_ownOrdered_example :
    let op := { sampleRemote with vectorClock := sampleRemote.vectorClock.insert "b" 1 }
    let evs := [.call (sampleCall "u" 0), samplePull op, .call (sampleCall "v" 20)]
    (∀ evs', evs' <+: evs → (replay step (create "b") evs').OwnOrdered) ∧
      ((replay step (create "b") evs).engine.localStore.get ("incidents", "r")).map
        Record.vectorClock = some (((∅ : Dict String ℤ).insert "a" 1).insert "b" 2) :=
  ⟨(always_ownOrdered_iff "b" {} _ (by decide +kernel)).2 (by decide +kernel), by decide +kernel⟩

/-- Two own updates reach `{b:2}`; the pulled `{a:1}` wins by its timestamp and replaces the
row; the next own update carries `{a:1, b:1}`, concurrent with `{b:2}`. -/
theorem own_counter_reissued :
    ¬ (replay step (create "b") [.call (sampleCall "u" 0), .call (sampleCall "v" 1),
      samplePull sampleRemote, .call (sampleCall "w" 20)]).OwnOrdered := by
  unfold OwnOrdered
  decide +kernel

end Node
end Dhava
