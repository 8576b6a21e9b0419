import Dhava.Proofs.Provenance

/-! The summary clock of an engine. Clocks count per record, and the engine sends one
maximum over all records: a count it reached on one record can hide another record. -/

namespace Dhava

open Foundations

variable {V : Type}

/-- A live record of another node that a summary clock leaves out of the delta. -/
def Record.Hidden (r : Record V) (senderVc : VectorClock) (n : String) : Prop :=
  r.deleted = false ∧ r.lastModifiedBy ≠ n ∧
    (senderVc.compare (VectorClock.ofDict r.vectorClock).clocks = .after ∨
      senderVc.compare (VectorClock.ofDict r.vectorClock).clocks = .equal)

/-- The count a record shows of the node that modified it last. -/
def Record.ownCount (r : Record V) : ℤ := (VectorClock.ofDict r.vectorClock).get r.lastModifiedBy

namespace Node

/-- The node has processed, or stores, a version that dominates the record. -/
def Covers (node : Node V) (r : Record V) : Prop :=
  (∃ p ∈ node.processed, p.key = r.key ∧
      (VectorClock.ofDict p.vectorClock).dominates (VectorClock.ofDict r.vectorClock).clocks = true) ∨
    ∃ q ∈ node.engine.localStore.get r.key true,
      (VectorClock.ofDict q.vectorClock).dominates (VectorClock.ofDict r.vectorClock).clocks = true

/-- On the record itself, not on another one, the node has seen the count of its last writer. -/
def SeenOnRecord (node : Node V) (r : Record V) : Prop :=
  ∃ op ∈ node.seen, op.key = r.key ∧
    r.ownCount ≤ (VectorClock.ofDict op.vectorClock).get r.lastModifiedBy

/-- A count of another node in an own clock was pulled on the same record before. -/
theorem Traced.processed_of_seen {node : Node V} (h : node.Traced) {op : Operation V}
    (hop : op ∈ node.seen) {m : String} (hm : m ≠ node.engine.nodeId) {k : ℤ} (hk : 0 < k)
    (hle : k ≤ (VectorClock.ofDict op.vectorClock).get m) :
    ∃ p ∈ node.processed, p.key = op.key ∧ k ≤ (VectorClock.ofDict p.vectorClock).get m := by
  rcases List.mem_append.1 hop with hown | hpulled
  · obtain ⟨p, hp, hkey, hshown⟩ := h.shown op hown m hm (by omega)
    exact ⟨p, hp, hkey, hle.trans hshown⟩
  · exact ⟨op, hpulled, rfl, hle⟩

end Node

namespace World

variable {w : World V} {n : String} {r : Record V}

theorem covers_seen (h : w.Provenance) (hcov : (w.nodes n).Covers r) :
    (w.nodes n).SeenOnRecord r := by
  rcases hcov with ⟨p, hp, hkey, hdom⟩ | ⟨q, hq, hdom⟩
  · exact ⟨p, List.mem_append_right _ hp, hkey, VectorClock.dominates_iff.1 hdom _⟩
  · obtain ⟨op, hop, hkey, hvc⟩ := (h.traced n).stored r.key q hq
    refine ⟨op, hop, hkey, ?_⟩
    rw [hvc]
    exact VectorClock.dominates_iff.1 hdom _

/-- Where the last writer issued the record's count once, whoever has seen the count on the
record has processed a version that dominates it: counts of a record are stamped on top of
the stamps they show. -/
theorem seen_covers (h : w.Provenance) {o : Operation V} (ho : o ∈ (w.nodes r.lastModifiedBy).ops)
    (hovc : o.vectorClock = r.vectorClock) (hne : r.lastModifiedBy ≠ n)
    (huniq : ∀ op ∈ (w.nodes r.lastModifiedBy).ops, op.key = r.key →
      (VectorClock.ofDict op.vectorClock).get r.lastModifiedBy = r.ownCount →
      VectorClock.ofDict op.vectorClock = VectorClock.ofDict r.vectorClock)
    (hseen : (w.nodes n).SeenOnRecord r) : (w.nodes n).Covers r := by
  have hpos : 0 < r.ownCount := by
    have := (h.traced r.lastModifiedBy).positive o ho
    rwa [h.nodeId, hovc] at this
  obtain ⟨op, hop, hkey, hle⟩ := hseen
  obtain ⟨p, hp, hpkey, hple⟩ := (h.traced n).processed_of_seen hop
    (fun he => hne (he.trans (h.nodeId n))) hpos hle
  obtain ⟨m, hm⟩ := h.stamp_of_seen (List.mem_append_right _ hp)
  rw [hpkey, hkey] at hm
  refine Or.inl ⟨p, hp, hpkey.trans hkey, VectorClock.dominates_iff.2 ?_⟩
  refine (h.attested r.key).le_of_unique hm hpos ?_ hple
  rintro d ⟨op', hop', hk', rfl⟩ hcount
  rw [huniq op' hop' hk' hcount]

/-- At every request of every run: a live record of another node that the summary clock
leaves out is covered by what the node processed or stores exactly when the node has seen
the last writer's count on that record itself, provided that this writer has not issued
the count a second time on the record. -/
theorem hidden_covered_iff (serverNodeId : String) (resolver : ConflictResolver)
    (serverConfig : ServerConfig) (config : String → EngineConfig) (evs : List (WorldEvent V))
    (hfresh : Admitted step Fresh (init serverNodeId resolver serverConfig config) evs)
    (n sessionId : String) (bandwidthBps : ℤ) (serverNow : Readings) (r : Record V) :
    let w := replay step (init serverNodeId resolver serverConfig config) evs
    let req := w.request n sessionId bandwidthBps
    r ∈ (w.server.handleSyncRequest noFaults serverNow req).1.localStore.records.rows →
    r.Hidden (VectorClock.ofDict req.senderVectorClock) n →
    (∀ op ∈ (w.nodes r.lastModifiedBy).ops, op.key = r.key →
      (VectorClock.ofDict op.vectorClock).get r.lastModifiedBy = r.ownCount →
      VectorClock.ofDict op.vectorClock = VectorClock.ofDict r.vectorClock) →
    ((w.nodes n).Covers r ↔ (w.nodes n).SeenOnRecord r) := by
  intro w req hr hhid huniq
  have h : w.Provenance := hfresh.invariant
    (provenance_init serverNodeId resolver serverConfig config)
    fun w ev hw hev => provenance_step hw ev hev
  obtain ⟨o, ho, -, hvc⟩ :=
    h.server_sync sessionId bandwidthBps 0 serverNow ((LocalStore.mem_rows_iff _ r).1 hr)
  exact ⟨covers_seen h, seen_covers h ho hvc hhid.2.1 huniq⟩

/-- A create by node `n`, for the fixed inputs below. -/
def sampleCreate (n recordId opId : String) (now : ℚ) : WorldEvent ℕ :=
  .call n { opType := .create, collection := "incidents", recordId, opId, now, enqueuedAt := now }

instance (r : Record V) (senderVc : VectorClock) (n : String) : Decidable (r.Hidden senderVc n) :=
  inferInstanceAs (Decidable (_ ∧ _ ∧ (_ ∨ _)))

instance (node : Node V) (r : Record V) : Decidable (node.Covers r) :=
  inferInstanceAs (Decidable (_ ∨ _))

instance (node : Node V) (r : Record V) : Decidable (node.SeenOnRecord r) :=
  inferInstanceAs (Decidable (∃ op ∈ node.seen, _ ∧ _))

/-- Node `a` writes record `x` and syncs, and `b` pulls it. -/
def onePull : List (WorldEvent ℕ) :=
  [sampleCreate "a" "x" "u" 0, .sync "a" "1" (some 2000000) 1 1, .sync "b" "2" (some 2000000) 2 2]

/-- The row of `x`, which `b` is not sent again. -/
def pulledRow : Record ℕ where
  recordId := "x"
  collection := "incidents"
  data := ∅
  version := 1
  vectorClock := (∅ : Dict String ℤ).insert "a" 1
  lastModified := 0
  lastModifiedBy := "a"

theorem hidden_covered_example :
    ((replay step (init "hq" { nodeId := "hq" } {} fun _ => {}) onePull).nodes "b").Covers pulledRow ↔
      ((replay step (init "hq" { nodeId := "hq" } {} fun _ => {}) onePull).nodes "b").SeenOnRecord
        pulledRow :=
  hidden_covered_iff "hq" { nodeId := "hq" } {} (fun _ => {}) onePull (by decide +kernel)
    "b" "3" 2000000 5 pulledRow (by decide +kernel) (by decide +kernel) (by decide +kernel)

/-- After that `a` writes record `y` and syncs. -/
def twoRecords : World ℕ :=
  replay step (init "hq" { nodeId := "hq" } {} fun _ => {})
    (onePull ++ [sampleCreate "a" "y" "v" 3, .sync "a" "3" (some 2000000) 4 4])

/-- `b` has the count 1 of `a` from record `x`, so `{a:1}` on `y` is not sent to it, and `b`
has no version of `y` at all. -/
theorem record_hidden :
    ∃ r ∈ (twoRecords.server.handleSyncRequest noFaults 5
        (twoRecords.request "b" "4" 2000000)).1.localStore.records.rows,
      r.Hidden (VectorClock.ofDict (twoRecords.request "b" "4" 2000000).senderVectorClock) "b" ∧
        ¬ (twoRecords.nodes "b").Covers r := by
  decide +kernel

end World
end Dhava
