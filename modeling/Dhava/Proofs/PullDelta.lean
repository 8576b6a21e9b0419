import Dhava.Spec.Server

/-! The delta a pull carries. It runs over the collections with a live row, and in each
over the 500 rows modified last: what it misses lies outside of that. -/

namespace Dhava

open Foundations

namespace LocalStore

variable {V : Type}

theorem mem_getAllCollections (s : LocalStore V) (coll : String) :
    coll ∈ s.getAllCollections ↔ ∃ q ∈ s.records.rows, q.collection = coll ∧ q.deleted = false := by
  unfold getAllCollections
  rw [List.mem_insertionSort, List.mem_dedup, List.mem_map]
  refine exists_congr fun q => ?_
  rw [List.mem_filter, Bool.not_eq_true', and_assoc]
  exact and_congr_right fun _ => and_comm

theorem nodup_getAllCollections (s : LocalStore V) : s.getAllCollections.Nodup :=
  (List.perm_insertionSort _ _).nodup_iff.2 (List.nodup_dedup _)

/-- The rows of a collection, tombstones included, in the order a query gives them. -/
def rowsOf (s : LocalStore V) (coll : String) : List (Record V) :=
  byLastModified s.ties (s.records.rows.filter fun r => r.collection = coll)

theorem mem_rowsOf (s : LocalStore V) (coll : String) (r : Record V) :
    r ∈ s.rowsOf coll ↔ r ∈ s.records.rows ∧ r.collection = coll := by
  rw [rowsOf, (perm_byLastModified _ _).mem_iff, List.mem_filter, decide_eq_true_eq]

theorem nodup_rows (s : LocalStore V) : s.records.rows.Nodup := s.records.nodup.of_map _

theorem nodup_rowsOf (s : LocalStore V) (coll : String) : (s.rowsOf coll).Nodup :=
  (perm_byLastModified _ _).nodup_iff.2 (s.nodup_rows.filter _)

theorem query_deleted (s : LocalStore V) (coll : String) (limit : ℕ) :
    s.query coll (fun _ => true) limit 0 true = (s.rowsOf coll).take limit := by
  simp [query, rowsOf]

end LocalStore

namespace Server

open LocalStore

variable {V : Type}

theorem newForPeer_iff {peerVc : VectorClock} {peer : String} {r : Record V} :
    newForPeer peerVc peer r = true ↔
      r.lastModifiedBy ≠ peer ∧ ¬ VectorClock.ofDict r.vectorClock ≤ peerVc := by
  unfold newForPeer
  simp only [Bool.and_eq_true, Bool.or_eq_true, decide_eq_true_eq]
  refine and_congr_right fun _ => ?_
  rw [VectorClock.compare_before, VectorClock.compare_concurrent, lt_iff_le_not_ge]
  tauto

/-- The rows the delta is made from. -/
def deltaRows (srv : Server V) (peerVc : VectorClock) (peerNodeId : String) : List (Record V) :=
  srv.localStore.getAllCollections.flatMap fun coll =>
    ((srv.localStore.rowsOf coll).take 500).filter (newForPeer peerVc peerNodeId)

theorem getOperationsForPeer_eq (srv : Server V) (now : ℚ) (peerVc : VectorClock)
    (peerNodeId : String) :
    srv.getOperationsForPeer now peerVc peerNodeId =
      (srv.deltaRows peerVc peerNodeId).map (snapshotOp now) := by
  unfold getOperationsForPeer deltaRows
  rw [List.map_flatMap]
  simp only [query_deleted]

theorem mem_deltaRows (srv : Server V) (peerVc : VectorClock) (peerNodeId : String) (r : Record V) :
    r ∈ srv.deltaRows peerVc peerNodeId ↔
      newForPeer peerVc peerNodeId r = true ∧
        (∃ q ∈ srv.localStore.records.rows, q.collection = r.collection ∧ q.deleted = false) ∧
        r ∈ (srv.localStore.rowsOf r.collection).take 500 := by
  unfold deltaRows
  simp only [List.mem_flatMap, List.mem_filter, mem_getAllCollections]
  constructor
  · intro h
    obtain ⟨coll, hcoll, hr, hnew⟩ := h
    obtain rfl := ((mem_rowsOf _ _ _).1 (List.mem_of_mem_take hr)).2
    exact ⟨hnew, hcoll, hr⟩
  · intro h
    obtain ⟨hnew, hcoll, hr⟩ := h
    exact ⟨r.collection, hcoll, hr, hnew⟩

theorem nodup_deltaRows (srv : Server V) (peerVc : VectorClock) (peerNodeId : String) :
    (srv.deltaRows peerVc peerNodeId).Nodup := by
  unfold deltaRows
  rw [List.nodup_flatMap]
  refine ⟨fun coll _ => (((nodup_rowsOf _ coll).sublist (List.take_sublist _ _)).filter _), ?_⟩
  refine (nodup_getAllCollections _).imp fun {a b} hab r ha hb => hab ?_
  have hra := ((mem_rowsOf _ _ _).1 (List.mem_of_mem_take (List.mem_filter.1 ha).1)).2
  have hrb := ((mem_rowsOf _ _ _).1 (List.mem_of_mem_take (List.mem_filter.1 hb).1)).2
  exact hra.symm.trans hrb

/-- The delta has one operation for each row that is new to the peer, and no other, exactly
when each such row shares its collection with a live row and is among the 500 of its
collection modified last. -/
theorem delta_exact_iff (srv : Server V) (now : ℚ) (peerVc : VectorClock) (peerNodeId : String) :
    (srv.getOperationsForPeer now peerVc peerNodeId).Perm
        ((srv.localStore.records.rows.filter (newForPeer peerVc peerNodeId)).map (snapshotOp now)) ↔
      ∀ r ∈ srv.localStore.records.rows, newForPeer peerVc peerNodeId r = true →
        (∃ q ∈ srv.localStore.records.rows, q.collection = r.collection ∧ q.deleted = false) ∧
          r ∈ (srv.localStore.rowsOf r.collection).take 500 := by
  have hnd := srv.nodup_deltaRows peerVc peerNodeId
  have hsub : srv.deltaRows peerVc peerNodeId ⊆
      srv.localStore.records.rows.filter (newForPeer peerVc peerNodeId) := by
    intro r hr
    obtain ⟨hnew, -, hrow⟩ := (srv.mem_deltaRows _ _ _).1 hr
    have hmem := ((mem_rowsOf _ _ _).1 (List.mem_of_mem_take hrow)).1
    exact List.mem_filter.2 ⟨hmem, hnew⟩
  rw [getOperationsForPeer_eq]
  constructor
  · intro hperm r hr hnew
    -- equal lengths leave no qualifying row out
    have hlen := hperm.length_eq
    rw [List.length_map, List.length_map] at hlen
    have hp := (hnd.subperm hsub).perm_of_length_le hlen.ge
    have hmem := hp.mem_iff.2 (List.mem_filter.2 ⟨hr, hnew⟩)
    exact ((srv.mem_deltaRows _ _ _).1 hmem).2
  · intro h
    apply List.Perm.map
    rw [List.perm_ext_iff_of_nodup hnd (srv.localStore.nodup_rows.filter _)]
    refine fun r => ⟨fun hr => hsub hr, fun hr => ?_⟩
    obtain ⟨hrow, hnew⟩ := List.mem_filter.1 hr
    exact (srv.mem_deltaRows _ _ _).2 ⟨hnew, h r hrow hnew⟩

/-- A server that has taken in one record and its delete. -/
def lonelyTombstone : Server ℕ :=
  let srv : Server ℕ := Server.create "hq"
  let u : Operation ℕ :=
    { opId := "u", nodeId := "a", opType := .create, collection := "incidents", recordId := "r"
      payload := ∅, timestamp := 0, vectorClock := (∅ : Dict String ℤ).insert "a" 1
      lamportTimestamp := 1, enqueuedAt := 0 }
  let d : Operation ℕ :=
    { u with
      opId := "d", opType := .delete, timestamp := 1
      vectorClock := (∅ : Dict String ℤ).insert "a" 2, lamportTimestamp := 2 }
  ((srv.pushOne none u).1.pushOne none d).1

/-- The tombstone is new to a peer with an empty clock, and it is not sent. -/
theorem tombstone_not_sent :
    (lonelyTombstone.localStore.records.rows.filter
        (newForPeer (VectorClock.ofDict ∅) "b")).map Record.deleted = [true] ∧
      lonelyTombstone.getOperationsForPeer 2 (VectorClock.ofDict ∅) "b" = [] := by
  decide +kernel

end Server
end Dhava
