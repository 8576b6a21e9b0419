import Dhava.Proofs.Request
import Dhava.Spec.Registry

/-! What the registry keeps of a registration. Every call writes at most one entry, and the
telemetry of an answered request writes it like a registration without key and metadata. -/

namespace Dhava

open Foundations

variable {V : Type}

namespace Server

/-- The request gets to step 4, the telemetry. -/
def answers (srv : Server V) (faults : ℕ → Option Fault) (req : SyncPushRequest V) : Prop :=
  srv.refuses req.nodeId = false ∧
    ∃ dicts, unpackRequest req = .ok dicts ∧ (srv.pushLoop faults dicts).raised = none

/-- The call is a request of this node that gets there. -/
def syncs (srv : Server V) (n : String) : ServerCall V → Prop
  | .register .. => False
  | .request faults _ req => req.nodeId = n ∧ srv.answers faults req

/-- What the registry shows of the registration of a node. -/
def shown (srv : Server V) (n : String) : Option (Option (List UInt8) × Dict String V) :=
  (srv.nodeStatus n).map fun info => (info.publicKey, info.metadata)

theorem shown_of_syncNodes {srv srv' : Server V} (h : srv'.syncNodes = srv.syncNodes) (n : String) :
    srv'.shown n = srv.shown n := by
  unfold shown nodeStatus getNodeStatus
  rw [h]

/-! ### One call -/

/-- A registration replaces the metadata, and the key where it has one. -/
theorem shown_registerNode (srv : Server V) (now : ℚ) (nodeId : String)
    (publicKey : Option (List UInt8)) (metadata : Dict String V) (n : String) :
    (srv.registerNode now nodeId publicKey metadata).shown n =
      if n = nodeId then
        some ((publicKey.filter (· ≠ [])).or ((srv.shown n).bind Prod.fst), metadata)
      else srv.shown n := by
  have hfilter : ∀ stored : Option (List UInt8),
      ((publicKey.filter (· ≠ [])).or stored).filter (· ≠ []) =
        (publicKey.filter (· ≠ [])).or (stored.filter (· ≠ [])) := by
    intro stored
    cases publicKey with
    | none => rfl
    | some key => by_cases hkey : key = [] <;> simp [Option.filter, hkey]
  unfold shown nodeStatus getNodeStatus registerNode
  rw [Keyed.find?_upsert]
  by_cases hn : n = nodeId
  · rw [if_pos hn, if_pos hn, hn]
    simp only
    cases srv.syncNodes.find? nodeId with
    | none =>
      have hnew := hfilter none
      rw [Option.or_none, Option.filter_none, Option.or_none] at hnew
      simp only [Option.elim_none, Option.map_some, Option.map_none, Option.bind_none,
        Option.or_none, rowToNodeInfo, hnew]
    | some stored =>
      simp only [Option.elim_some, Option.map_some, Option.bind_some, rowToNodeInfo, hfilter]
  · rw [if_neg hn, if_neg hn]

/-- The telemetry of a node is a registration of it that gives nothing. -/
theorem shown_telemetry (srv : Server V) (now : Readings) (nodeId : String) (opsSynced : ℕ)
    (status : String) (n : String) :
    (srv.updateNodeSyncTelemetry now nodeId opsSynced status).shown n =
      (srv.registerNode now.registered nodeId).shown n := by
  unfold updateNodeSyncTelemetry shown nodeStatus getNodeStatus
  rw [Keyed.find?_update]
  cases (srv.registerNode now.registered nodeId).syncNodes.find? n with
  | none => rfl
  | some row =>
    by_cases h : row.nodeId = nodeId
    · simp [h, rowToNodeInfo]
    · simp [h]

/-- An answered request takes the metadata of its node and keeps the key. -/
theorem shown_handleSyncRequest (srv : Server V) (faults : ℕ → Option Fault) (now : Readings)
    (req : SyncPushRequest V) (n : String) :
    (srv.answers faults req → (srv.handleSyncRequest faults now req).1.shown n =
        if n = req.nodeId then some ((srv.shown n).bind Prod.fst, ∅) else srv.shown n) ∧
      (¬ srv.answers faults req →
        (srv.handleSyncRequest faults now req).1.shown n = srv.shown n) := by
  have hloop : ∀ dicts, (srv.pushLoop faults dicts).server.shown n = srv.shown n :=
    fun dicts => shown_of_syncNodes (srv.pushLoop_frame faults dicts).2.1 n
  rcases srv.handleSyncRequest_ends faults now req with
    ⟨error, hresult, hstopped⟩ | ⟨dicts, hpasses, hunpack, ⟨exc, error, hraised, hresult⟩ | ⟨hraised, hresult⟩⟩
  · refine ⟨fun h => ?_, fun _ => by rw [hresult]⟩
    obtain ⟨hpasses, dicts, hunpack, -⟩ := h
    exact absurd hunpack (hstopped dicts hpasses)
  · refine ⟨fun h => ?_, fun _ => by rw [hresult]; exact hloop dicts⟩
    obtain ⟨-, dicts', hunpack', hraised'⟩ := h
    obtain rfl := Except.ok.inj (hunpack.symm.trans hunpack')
    rw [hraised] at hraised'
    cases hraised'
  · refine ⟨fun _ => ?_, fun h => absurd ⟨hpasses, dicts, hunpack, hraised⟩ h⟩
    rw [hresult]
    refine (shown_telemetry _ _ _ _ _ _).trans ((shown_registerNode _ _ _ _ _ _).trans ?_)
    rw [hloop]
    rfl

/-! ### A run of calls -/

/-- The key that an explicit registration of the node gives. -/
def keyGiven (n : String) : ServerCall V → Option (List UInt8)
  | .register _ nodeId publicKey _ => if nodeId = n then publicKey.filter (· ≠ []) else none
  | .request .. => none

/-- The latest key that is not empty. -/
def latestKey (n : String) (calls : List (ServerCall V)) : Option (List UInt8) :=
  calls.reverse.findSome? (keyGiven n)

/-- The call is an explicit registration of the node. -/
def registers (n : String) : ServerCall V → Bool
  | .register _ nodeId _ _ => nodeId = n
  | .request .. => false

theorem latestKey_concat (n : String) (calls : List (ServerCall V)) (c : ServerCall V) :
    latestKey n (calls ++ [c]) = (keyGiven n c).or (latestKey n calls) := by
  unfold latestKey
  rw [List.reverse_concat, List.findSome?_cons]
  cases keyGiven n c <;> rfl

theorem key_serve (srv : Server V) (n : String) (c : ServerCall V) :
    ((srv.serve c).shown n).bind Prod.fst = (keyGiven n c).or ((srv.shown n).bind Prod.fst) := by
  cases c with
  | register now nodeId publicKey metadata =>
    rw [serve, shown_registerNode, keyGiven]
    by_cases hn : n = nodeId
    · rw [if_pos hn, if_pos hn.symm, Option.bind_some]
    · rw [if_neg hn, if_neg (Ne.symm hn), Option.none_or]
  | request faults now req =>
    obtain ⟨hanswered, hnot⟩ := srv.shown_handleSyncRequest faults now req n
    rw [serve, keyGiven, Option.none_or]
    by_cases h : srv.answers faults req
    · rw [hanswered h]
      split_ifs
      · rw [Option.bind_some]
      · rfl
    · rw [hnot h]

theorem key_replay (srv : Server V) (n : String) (calls : List (ServerCall V)) :
    ((replay serve srv calls).shown n).bind Prod.fst =
      (latestKey n calls).or ((srv.shown n).bind Prod.fst) := by
  induction calls using List.reverseRecOn with
  | nil => rfl
  | append_singleton calls c ih => rw [replay_concat, key_serve, ih, latestKey_concat, Option.or_assoc]

/-- Between two registrations of a node, its metadata is lost to a request and otherwise stays. -/
theorem metadata_serve {srv : Server V} {n : String} {metadata : Dict String V} (c : ServerCall V)
    (hc : registers n c = false) (h : (srv.shown n).map Prod.snd = some metadata) :
    (srv.syncs n c → ((srv.serve c).shown n).map Prod.snd = some ∅) ∧
      (¬ srv.syncs n c → ((srv.serve c).shown n).map Prod.snd = some metadata) := by
  cases c with
  | register now nodeId publicKey md =>
    have hn : n ≠ nodeId := Ne.symm (of_decide_eq_false hc)
    refine ⟨fun hsync => hsync.elim, fun _ => ?_⟩
    rw [serve, shown_registerNode, if_neg hn]
    exact h
  | request faults now req =>
    obtain ⟨hanswered, hnot⟩ := srv.shown_handleSyncRequest faults now req n
    rw [serve]
    by_cases hsync : srv.answers faults req
    · rw [hanswered hsync]
      refine ⟨fun hs => ?_, fun hs => ?_⟩
      · rw [if_pos hs.1.symm, Option.map_some]
      · rw [if_neg fun hn => hs ⟨hn.symm, hsync⟩]
        exact h
    · rw [hnot hsync]
      exact ⟨fun hs => absurd hs.2 hsync, fun _ => h⟩

theorem metadata_replay {srv : Server V} {n : String} {metadata : Dict String V}
    (after : List (ServerCall V)) (hlatest : ∀ c ∈ after, registers n c = false)
    (h : (srv.shown n).map Prod.snd = some metadata) :
    (Admitted serve (fun s c => ¬ s.syncs n c) srv after →
        ((replay serve srv after).shown n).map Prod.snd = some metadata) ∧
      (¬ Admitted serve (fun s c => ¬ s.syncs n c) srv after →
        ((replay serve srv after).shown n).map Prod.snd = some ∅) := by
  induction after generalizing srv metadata with
  | nil => exact ⟨fun _ => h, fun hno => absurd trivial hno⟩
  | cons c rest ih =>
    rw [List.forall_mem_cons] at hlatest
    obtain ⟨hsync, hkeep⟩ := metadata_serve c hlatest.1 h
    by_cases hs : srv.syncs n c
    · obtain ⟨hyes, hno⟩ := ih hlatest.2 (hsync hs)
      exact ⟨fun hadm => absurd hs hadm.1, fun _ => (em _).elim hyes hno⟩
    · obtain ⟨hyes, hno⟩ := ih hlatest.2 (hkeep hs)
      exact ⟨fun hadm => hyes hadm.2, fun hadm => hno fun hrest => hadm ⟨hs, hrest⟩⟩

/-! ### What is reported -/

/-- `list_nodes` lists a node once, as `get_node_status` reports it. -/
theorem mem_listNodes {srv : Server V} {n : String} {info : NodeInfo V}
    (h : srv.nodeStatus n = some info) (i : NodeInfo V) :
    i ∈ srv.listNodes ∧ i.nodeId = n ↔ i = info := by
  obtain ⟨row, hrow, rfl⟩ := Option.map_eq_some_iff.1 h
  obtain ⟨hmem, hid⟩ := (Keyed.find?_eq_some _).1 hrow
  unfold listNodes
  rw [List.mem_map]
  simp only [List.mem_insertionSort]
  constructor
  · rintro ⟨⟨row', hmem', rfl⟩, hid'⟩
    rw [srv.syncNodes.eq_of_key_eq hmem' hmem (hid'.trans hid.symm)]
  · rintro rfl
    exact ⟨⟨row, hmem, rfl⟩, hid⟩

/-- After any calls, the latest of which to register a node gave `metadata`, both reports show
the latest key that was given, and they show that metadata exactly if it is empty or no request
of the node was answered since. -/
theorem registration_reported (srv : Server V) (n : String) (before : List (ServerCall V)) (now : ℚ)
    (publicKey : Option (List UInt8)) (metadata : Dict String V) (after : List (ServerCall V))
    (hlatest : ∀ c ∈ after, registers n c = false) :
    let calls := before ++ .register now n publicKey metadata :: after
    let registered := replay serve srv (before ++ [.register now n publicKey metadata])
    ∃ info, (replay serve srv calls).nodeStatus n = some info ∧
      (∀ i, i ∈ (replay serve srv calls).listNodes ∧ i.nodeId = n ↔ i = info) ∧
      info.publicKey = (latestKey n calls).or ((srv.shown n).bind Prod.fst) ∧
      (info.metadata = metadata ↔
        metadata = ∅ ∨ Admitted serve (fun s c => ¬ s.syncs n c) registered after) := by
  intro calls registered
  have hregistered : (registered.shown n).map Prod.snd = some metadata := by
    rw [show registered = _ from replay_concat before _, serve, shown_registerNode, if_pos rfl]
    rfl
  have hcalls : replay serve srv calls = replay serve registered after := by
    rw [← replay_append, List.append_assoc]
    rfl
  obtain ⟨hyes, hno⟩ := metadata_replay after hlatest hregistered
  rw [← hcalls] at hyes hno
  have hkey := key_replay srv n calls
  cases hstatus : (replay serve srv calls).nodeStatus n with
  | none =>
    rw [shown, hstatus] at hyes hno
    by_cases hadm : Admitted serve (fun s c => ¬ s.syncs n c) registered after
    · cases hyes hadm
    · cases hno hadm
  | some info =>
    have hshown : (replay serve srv calls).shown n = some (info.publicKey, info.metadata) := by
      rw [shown, hstatus, Option.map_some]
    rw [hshown] at hyes hno hkey
    refine ⟨info, rfl, mem_listNodes hstatus, hkey, ?_⟩
    by_cases hadm : Admitted serve (fun s c => ¬ s.syncs n c) registered after
    · exact iff_of_true (Option.some.inj (hyes hadm)) (.inr hadm)
    · have hlost : info.metadata = ∅ := Option.some.inj (hno hadm)
      rw [hlost, or_iff_left hadm, eq_comm]

/-- A node loses the metadata of its registration in its first sync. -/
theorem sync_erases_metadata :
    let metadata := (∅ : Dict String String).insert "location" "Sector B"
    let req : SyncPushRequest String :=
      { nodeId := "node-01", sessionId := "s", operationCount := 0, senderVectorClock := ∅
        encryptedPayload := .empty, hashMatches := true }
    let srv := replay serve (Server.create "hq-main")
      [.register 1 "node-01" none metadata, .request noFaults 2 req]
    (srv.nodeStatus "node-01").map NodeInfo.metadata ≠ some metadata := by
  decide +kernel

/-- A sync without operations. -/
def emptySync (nodeId : String) : ServerCall String :=
  .request noFaults 3 { nodeId, sessionId := "s", operationCount := 0, senderVectorClock := ∅
                        encryptedPayload := .empty, hashMatches := true }

/-- Node 1 registers again, with metadata. A sync of node 2 leaves that alone; its own one
takes the metadata and leaves the key. -/
theorem registration_reported_example :
    let metadata := (∅ : Dict String String).insert "location" "Sector B"
    let before : List (ServerCall String) :=
      [.register 1 "node-01" (some [7]) ∅, .register 1 "node-02" none ∅]
    let after (syncs : List (ServerCall String)) : Server String :=
      replay serve (Server.create "hq-main")
        (before ++ .register 2 "node-01" none metadata :: emptySync "node-02" :: syncs)
    (∃ info, (after []).nodeStatus "node-01" = some info ∧
        info.publicKey = some [7] ∧ info.metadata = metadata) ∧
      ∃ info, (after [emptySync "node-01"]).nodeStatus "node-01" = some info ∧
        info.publicKey = some [7] ∧ info.metadata ≠ metadata := by
  intro metadata before after
  obtain ⟨info, hstatus, -, hkey, hmetadata⟩ := registration_reported (Server.create "hq-main")
    "node-01" before 2 none metadata [emptySync "node-02"] (by decide)
  obtain ⟨info', hstatus', -, hkey', hmetadata'⟩ := registration_reported (Server.create "hq-main")
    "node-01" before 2 none metadata [emptySync "node-02", emptySync "node-01"] (by decide)
  refine ⟨⟨info, hstatus, hkey, hmetadata.2 (Or.inr ⟨fun h => absurd h.1 (by decide), trivial⟩)⟩,
    info', hstatus', hkey', fun h => ?_⟩
  rcases hmetadata'.1 h with hempty | hadm
  · exact absurd hempty (by decide +kernel)
  · exact hadm.2.1 ⟨rfl, by decide +kernel, [], rfl, rfl⟩

end Server
end Dhava
