import Dhava.Proofs.Exchange
import Dhava.Proofs.LwwOrder

/-! A request answered with an error. The loop stores each operation as it goes, and an
exception further on takes nothing back: what came before it stays. -/

namespace Dhava

open Foundations

variable {V : Type}

namespace Server

/-- The operations of a request ahead of the first one that does not decode or whose
iteration raises, on the table as it stands. -/
def untilRaise (srv : Server V) (faults : ℕ → Option Fault) : List (OpDict V) → List (Operation V)
  | [] => []
  | opDict :: rest =>
    match Operation.fromDict opDict with
    | .error _ => []
    | .ok op =>
      if srv.raisesOn op (faults 0) then [] else op :: untilRaise srv (fun i => faults (i + 1)) rest

theorem untilRaise_congr {srv srv' : Server V} (hid : srv'.identity = srv.identity)
    (hstore : srv'.localStore = srv.localStore) (faults : ℕ → Option Fault) (dicts : List (OpDict V)) :
    srv'.untilRaise faults dicts = srv.untilRaise faults dicts := by
  have hraises : ∀ op fault, srv'.raisesOn op fault = srv.raisesOn op fault := by
    intro op fault
    unfold raisesOn auditsOn
    rw [resolver_of_identity hid, config_of_identity hid, hstore]
  induction dicts generalizing faults with
  | nil => rfl
  | cons d rest ih =>
    unfold untilRaise
    cases Operation.fromDict d with
    | error exc => rfl
    | ok op => simp only [hraises, ih]

/-- The versions in the table never go down while a request is handled. -/
theorem versions_le_pushLoop (srv : Server V) (faults : ℕ → Option Fault) (dicts : List (OpDict V)) :
    srv.localStore.versions ≤ (srv.pushLoop faults dicts).server.localStore.versions := by
  rw [(srv.pushLoop_frame faults dicts).2.2]
  exact le_replay LocalStore.versions srv.conflictResolver.versions_le_process _ _

/-- The loop leaves the records alone exactly when it discards every operation it meets
before it raises. The first one it applies raises a version, and no later one lowers it. -/
theorem pushLoop_unchanged_iff (srv : Server V) (faults : ℕ → Option Fault) (dicts : List (OpDict V)) :
    (srv.pushLoop faults dicts).server.localStore = srv.localStore ↔
      ∀ op ∈ srv.untilRaise faults dicts,
        srv.conflictResolver.accepts (srv.localStore.get op.key true) op = false := by
  induction dicts generalizing srv faults with
  | nil => exact ⟨fun _ op hop => by simp [untilRaise] at hop, fun _ => rfl⟩
  | cons d rest ih =>
    unfold pushLoop untilRaise
    cases Operation.fromDict d with
    | error exc => exact ⟨fun _ op hop => by simp at hop, fun _ => rfl⟩
    | ok op =>
      have hone := srv.pushOne_pushed (faults 0) op
      simp only
      rcases hp : srv.pushOne (faults 0) op with ⟨srv', - | exc⟩
      · rw [hp] at hone
        have hraises : srv.raisesOn op (faults 0) = false := hone.raised.symm
        have hstore := hone.localStore
        simp only [hraises, Bool.false_eq_true, if_false] at hstore ⊢
        have hrest := srv'.versions_le_pushLoop (fun i => faults (i + 1)) rest
        cases hacc : srv.conflictResolver.accepts (srv.localStore.get op.key true) op with
        | true =>
          have hclimb := srv.localStore.versions_lt_applyOperation op
          rw [ConflictResolver.process, if_pos hacc] at hstore
          rw [hstore] at hrest
          constructor
          · intro h
            rw [h] at hrest
            exact absurd hrest hclimb.not_ge
          · intro h
            have := h op (by simp)
            rw [hacc] at this
            cases this
        | false =>
          rw [ConflictResolver.process, if_neg (Bool.eq_false_iff.1 hacc)] at hstore
          have hih := ih srv' fun i => faults (i + 1)
          rw [untilRaise_congr hone.identity hstore, resolver_of_identity hone.identity, hstore] at hih
          rw [hih, List.forall_mem_cons]
          exact (and_iff_right hacc).symm
      · rw [hp] at hone
        have hraises : srv.raisesOn op (faults 0) = true := hone.raised.symm
        have hstore := hone.localStore
        simp only [hraises, if_true] at hstore ⊢
        exact ⟨fun _ o ho => by simp at ho, fun _ => hstore⟩

/-- A request answered with an error has left the records and the node registry untouched
exactly when it was refused or did not unpack, or each of its operations ahead of the one
that raised loses against the table as it was. -/
theorem rejected_untouched_iff (srv : Server V) (faults : ℕ → Option Fault) (now : Readings)
    (req : SyncPushRequest V) (herr : (srv.handleSyncRequest faults now req).2.status = "error") :
    ((srv.handleSyncRequest faults now req).1.localStore = srv.localStore ∧
        (srv.handleSyncRequest faults now req).1.syncNodes = srv.syncNodes) ↔
      ∀ dicts, srv.refuses req.nodeId = false → unpackRequest req = .ok dicts →
        ∀ op ∈ srv.untilRaise faults dicts,
          srv.conflictResolver.accepts (srv.localStore.get op.key true) op = false := by
  rcases srv.handleSyncRequest_ends faults now req with
    ⟨error, hresult, hno⟩ | ⟨dicts, hpasses, hunpack, ⟨exc, error, -, hresult⟩ | ⟨-, hresult⟩⟩
  · rw [hresult]
    exact iff_of_true ⟨rfl, rfl⟩ fun dicts hpasses hunpack => absurd hunpack (hno dicts hpasses)
  · rw [hresult, (srv.pushLoop_frame faults dicts).2.1, and_iff_left rfl, pushLoop_unchanged_iff]
    refine ⟨fun h dicts' _ hd => ?_, fun h => h dicts hpasses hunpack⟩
    obtain rfl := Except.ok.inj (hunpack.symm.trans hd)
    exact h
  · rw [hresult] at herr
    exact absurd (show "ok" = "error" from herr) (by decide)

/-- A request with a well-formed operation and a dictionary without an operation type. -/
def halfMalformed : SyncPushRequest ℕ where
  nodeId := "a"
  sessionId := "s"
  operationCount := 2
  senderVectorClock := ∅
  encryptedPayload := .packed [(ConflictResolver.sampleUpdate "a" 0).toDict,
    { (ConflictResolver.sampleUpdate "b" 0).toDict with opType := none }]
  hashMatches := true

theorem rejected_untouched_example :
    ((((Server.create "hq").handleSyncRequest noFaults 0 halfMalformed).1.localStore =
          (Server.create "hq" : Server ℕ).localStore ∧
        ((Server.create "hq").handleSyncRequest noFaults 0 halfMalformed).1.syncNodes =
          (Server.create "hq" : Server ℕ).syncNodes) ↔
      ∀ dicts, (Server.create "hq" : Server ℕ).refuses "a" = false →
        unpackRequest halfMalformed = .ok dicts →
        ∀ op ∈ (Server.create "hq" : Server ℕ).untilRaise noFaults dicts,
          (Server.create "hq" : Server ℕ).conflictResolver.accepts
            ((Server.create "hq" : Server ℕ).localStore.get op.key true) op = false) :=
  rejected_untouched_iff (Server.create "hq") noFaults 0 halfMalformed (by decide +kernel)

/-- The request is answered with an error and its first operation is in the table. -/
theorem rejected_and_stored :
    ((Server.create "hq").handleSyncRequest noFaults 0 halfMalformed).2.status = "error" ∧
      ((Server.create "hq").handleSyncRequest noFaults 0 halfMalformed).2.ackedOpIds = [] ∧
      ¬ (((Server.create "hq").handleSyncRequest noFaults 0 halfMalformed).1.localStore =
          (Server.create "hq" : Server ℕ).localStore ∧
        ((Server.create "hq").handleSyncRequest noFaults 0 halfMalformed).1.syncNodes =
          (Server.create "hq" : Server ℕ).syncNodes) := by
  refine ⟨by decide +kernel, by decide +kernel, fun h => ?_⟩
  have hget := congrArg (fun s => (s.get ("incidents", "r")).isSome) h.1
  exact absurd hget (by decide +kernel)

end Server
end Dhava
