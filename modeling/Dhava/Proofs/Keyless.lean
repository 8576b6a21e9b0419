import Dhava.Proofs.Attribution
import Dhava.Proofs.Loopback

/-! The server among strangers. Anyone may send it bytes; only payloads sealed with the key
are opened. What was not sealed leaves no trace, and every stored row comes from what was. -/

namespace Dhava.Wire

open Foundations

variable {V : Type} {libs : Libraries V} {server : Party} {made : List Bytes}

/-- The key of the server opens the payload. -/
def Opens (libs : Libraries V) (server : Party) (payload : Bytes) : Prop :=
  ∃ data, libs.crypto.aesDecrypt server.crypto.encryptionKey (payload.take 12) (payload.drop 12) =
    .ok data

theorem opens_of_unpack {packed raw : Bytes} (hunpack : server.unpack libs packed = .ok raw) :
    Opens libs server packed := by
  unfold Party.unpack CryptoLayer.unpack at hunpack
  split_ifs at hunpack with hshort
  simp only at hunpack
  cases hdecrypt : libs.crypto.aesDecrypt server.crypto.encryptionKey (packed.take 12)
      (packed.drop 12) with
  | error exc =>
    rw [hdecrypt] at hunpack
    cases hunpack
  | ok data => exact ⟨data, hdecrypt⟩

/-- The payload of a call, if it has one. -/
def Call.payload (libs : Libraries V) : Call V → Option Bytes
  | .register .. => none
  | .request _ draw requestBytes =>
    match SyncPushRequest.deserialize libs.requests draw.now requestBytes with
    | .error _ => none
    | .ok req => some req.encryptedPayload

theorem Call.payload_request {faults : ℕ → Option Fault} {draw : ServerDraw} {requestBytes : Bytes}
    {req : SyncPushRequest}
    (hreq : SyncPushRequest.deserialize libs.requests draw.now requestBytes = .ok req) :
    Call.payload libs (.request faults draw requestBytes) = some req.encryptedPayload := by
  simp only [payload, hreq]

/-- If the payload of the call opens, it is one of those the holders of the key have made: the
tag of AES-GCM cannot be forged. -/
def Authentic (libs : Libraries V) (server : Party) (made : List Bytes) (c : Call V) : Prop :=
  ∀ payload, c.payload libs = some payload → Opens libs server payload → payload ∈ made

/-- The request does not deserialize, or has a payload that nobody sealed. -/
def forged (libs : Libraries V) (made : List Bytes) : Call V → Bool
  | .register .. => false
  | .request _ draw requestBytes =>
    match SyncPushRequest.deserialize libs.requests draw.now requestBytes with
    | .error _ => true
    | .ok req => req.encryptedPayload ≠ [] && req.encryptedPayload ∉ made

theorem unpackPush_forged {req : SyncPushRequest} (hne : req.encryptedPayload ≠ [])
    (hclosed : ¬ Opens libs server req.encryptedPayload) :
    ∃ error, unpackPush libs server req = .error error := by
  unfold unpackPush
  rw [if_neg hne]
  cases hunpack : server.unpack libs req.encryptedPayload with
  | error exc => exact ⟨_, rfl⟩
  | ok raw => exact absurd (opens_of_unpack hunpack) hclosed

/-- What becomes of the server is decided before the response is serialized. -/
theorem server_sendReceive (srv : Server V) (faults : ℕ → Option Fault) (draw : ServerDraw)
    (requestBytes : Bytes) : (sendReceive libs server srv faults draw requestBytes).1 =
      match SyncPushRequest.deserialize libs.requests draw.now requestBytes with
      | .error _ => srv
      | .ok req => (handleSyncRequest libs server srv faults draw req).1 := by
  unfold sendReceive
  cases SyncPushRequest.deserialize libs.requests draw.now requestBytes with
  | error exc => rfl
  | ok req =>
    simp only
    rcases handleSyncRequest libs server srv faults draw req with ⟨srv', exc | resp⟩
    · rfl
    · simp only
      cases resp.serialize libs.responses <;> rfl

/-- A forged request leaves the server as it was. -/
theorem serve_forged (srv : Server V) {c : Call V} (h : Authentic libs server made c)
    (hc : forged libs made c = true) : serve libs server srv c = srv := by
  cases c with
  | register now nodeId publicKey metadata => cases hc
  | request faults draw requestBytes =>
    refine (server_sendReceive srv faults draw requestBytes).trans ?_
    simp only [forged] at hc
    cases hreq : SyncPushRequest.deserialize libs.requests draw.now requestBytes with
    | error exc => rfl
    | ok req =>
      simp only [hreq, Bool.and_eq_true, decide_eq_true_eq] at hc
      have hclosed : ¬ Opens libs server req.encryptedPayload :=
        fun hopens => hc.2 (h _ (Call.payload_request hreq) hopens)
      obtain ⟨error, herror⟩ := unpackPush_forged hc.1 hclosed
      simp only [handleSyncRequest, herror]
      split_ifs <;> rfl

/-- In every run of the server, forged requests leave no trace: without them the server ends
in the same state and has answered every other request with the same bytes. -/
theorem forged_no_influence (srv : Server V) (calls : List (Call V))
    (h : ∀ c ∈ calls, Authentic libs server made c) :
    let kept := calls.map fun c => !forged libs made c
    replay (serve libs server) srv (select kept calls) = replay (serve libs server) srv calls ∧
      outputs (serve libs server) (reply libs server) srv (select kept calls) =
        select kept (outputs (serve libs server) (reply libs server) srv calls) := by
  intro kept
  have hmask : mask (fun (_ : Unit) _ => ()) (fun _ c => !forged libs made c) () calls = kept := by
    clear h
    induction calls with
    | nil => rfl
    | cons c rest ih => exact congrArg (_ :: ·) ih
  have hdrop : ∀ (k : Unit) (s : Server V), ∀ c ∈ calls, True → (!forged libs made c) = false →
      serve libs server s c = s ∧ True :=
    fun _ s c hmem _ hc => ⟨serve_forged s (h c hmem) (by simpa using hc), trivial⟩
  rw [← hmask]
  exact replay_select (fun _ _ _ _ _ _ => trivial) hdrop trivial

/-- The operations in the payloads that were sealed, by their author. -/
def sealedOps (libs : Libraries V) (server : Party) (made : List Bytes) (m : String) :
    Set (Operation V) :=
  {op | op.nodeId = m ∧ ∃ payload ∈ made, ∃ raw dicts, server.unpack libs payload = .ok raw ∧
    libs.operations.unpack raw = .ok dicts ∧ ∃ d ∈ dicts, Operation.fromDict d = .ok op}

/-- What a request brings into the loop comes out of a sealed payload. -/
theorem mem_sealedOps {req : SyncPushRequest}
    (h : Opens libs server req.encryptedPayload → req.encryptedPayload ∈ made)
    {dicts : List (OpDict V)} (hdicts : unpackPush libs server req = .ok dicts) {d : OpDict V}
    (hd : d ∈ dicts) {op : Operation V} (hop : Operation.fromDict d = .ok op) :
    op ∈ sealedOps libs server made op.nodeId := by
  unfold unpackPush at hdicts
  split_ifs at hdicts with hempty
  · obtain rfl := Except.ok.inj hdicts
    cases hd
  · cases hunpack : server.unpack libs req.encryptedPayload with
    | error exc =>
      rw [hunpack] at hdicts
      cases hdicts
    | ok raw =>
      simp only [hunpack] at hdicts
      split_ifs at hdicts with hhash
      cases hoperations : libs.operations.unpack raw with
      | error exc =>
        rw [hoperations] at hdicts
        cases hdicts
      | ok opsData =>
        rw [hoperations] at hdicts
        obtain rfl := Except.ok.inj hdicts
        exact ⟨rfl, _, h (opens_of_unpack hunpack), raw, opsData, hunpack, hoperations, d, hd, hop⟩

/-- A request changes the rows by processing operations of sealed payloads. -/
theorem localStore_handleSyncRequest (srv : Server V) (faults : ℕ → Option Fault)
    (draw : ServerDraw) (req : SyncPushRequest)
    (h : Opens libs server req.encryptedPayload → req.encryptedPayload ∈ made) :
    ∃ ops : List (Operation V), (∀ op ∈ ops, op ∈ sealedOps libs server made op.nodeId) ∧
      (handleSyncRequest libs server srv faults draw req).1.localStore =
        ops.foldl srv.conflictResolver.process srv.localStore := by
  unfold handleSyncRequest
  split_ifs
  · exact ⟨[], List.forall_mem_nil _, rfl⟩
  · cases hdicts : unpackPush libs server req with
    | error error => exact ⟨[], List.forall_mem_nil _, rfl⟩
    | ok dicts =>
      refine ⟨(srv.pushLoop faults dicts).processed, fun op hop => ?_, ?_⟩
      · obtain ⟨d, hd, hdecodes⟩ := srv.mem_processed faults dicts hop
        exact mem_sealedOps h hdicts hd hdecodes
      · rw [← (srv.pushLoop_frame faults dicts).2.2]
        simp only
        cases (srv.pushLoop faults dicts).raised with
        | some exc => rfl
        | none =>
          simp only [answer]
          cases libs.operations.pack _ <;> rfl

theorem attributedRows_serve {srv : Server V}
    (hrows : AttributedRows (sealedOps libs server made) srv.localStore) {c : Call V}
    (h : Authentic libs server made c) :
    AttributedRows (sealedOps libs server made) (serve libs server srv c).localStore := by
  cases c with
  | register now nodeId publicKey metadata => exact hrows
  | request faults draw requestBytes =>
    change AttributedRows _ (sendReceive libs server srv faults draw requestBytes).1.localStore
    rw [server_sendReceive]
    cases hreq : SyncPushRequest.deserialize libs.requests draw.now requestBytes with
    | error exc => exact hrows
    | ok req =>
      obtain ⟨ops, hops, hstore⟩ := localStore_handleSyncRequest srv faults draw req
        (h _ (Call.payload_request hreq))
      simp only
      rw [hstore]
      exact hrows.foldl_process _ fun op hop =>
        ⟨⟨op, hops op hop, rfl, rfl, rfl, Iff.rfl⟩, fun _ _ hv => ⟨_, op, hops op hop, rfl, hv⟩⟩

/-- Whatever bytes a server is sent, in each row the author, the clock, the time, the tombstone
and every field come from operations in payloads sealed with the key. -/
theorem stored_rows_sealed (serverNodeId : String) (resolver : ConflictResolver)
    (config : ServerConfig) (calls : List (Call V)) (h : ∀ c ∈ calls, Authentic libs server made c) :
    AttributedRows (sealedOps libs server made)
      (replay (serve libs server) (Server.new serverNodeId resolver config) calls).localStore := by
  have hadmitted : Admitted (serve libs server) (fun _ c => Authentic libs server made c)
      (Server.new serverNodeId resolver config) calls :=
    admitted_iff_split.2 fun before c after hsplit => h c (by rw [hsplit]; simp)
  refine hadmitted.invariant
    (P := fun srv : Server V => AttributedRows (sealedOps libs server made) srv.localStore) ?_
    fun srv c hrows hc => attributedRows_serve hrows hc
  intro key r hr
  cases hr

/-- The request of node `a` with the last byte of its payload changed. -/
def tamperedRequest : SyncPushRequest :=
  let req := sampleRequest (sampleOp "a" "r" "2")
  { req with encryptedPayload := req.encryptedPayload.dropLast ++ [1] }

/-- A stranger's bytes are MessagePack as well. -/
def strangerLibraries : Libraries ℕ := { sampleLibraries with
  requests := Packing.table ([sampleRequest (sampleOp "b" "q" "1"),
    sampleRequest (sampleOp "a" "r" "2"), tamperedRequest].map fun req =>
      (req.toDict, packRequest req)) }

theorem strangerLibraries_documented : strangerLibraries.Documented :=
  { sampleLibraries_documented with requests := Packing.table_faithful (by decide +kernel) }

/-- The payloads of the two nodes. -/
def sampleMade : List Bytes :=
  [samplePayload (sampleOp "b" "q" "1"), samplePayload (sampleOp "a" "r" "2")]

def sampleCalls : List (Call ℕ) :=
  [sampleRequest (sampleOp "b" "q" "1"), tamperedRequest, sampleRequest (sampleOp "a" "r" "2")].map
    fun req => .request noFaults sampleServerDraw (packRequest req)

theorem sampleCalls_authentic :
    ∀ c ∈ sampleCalls, Authentic strangerLibraries sampleParty sampleMade c := by
  have hmade : ∀ c ∈ sampleCalls, ∀ payload ∈ c.payload strangerLibraries, payload ∈ sampleMade ∨
      (strangerLibraries.crypto.aesDecrypt sampleParty.crypto.encryptionKey (payload.take 12)
        (payload.drop 12)).toOption = none := by decide +kernel
  rintro c hc payload hpayload ⟨data, hopens⟩
  refine (hmade c hc payload hpayload).resolve_right fun hclosed => ?_
  rw [hopens] at hclosed
  cases hclosed

theorem forged_no_influence_example :
    let srv : Server ℕ := Server.create "hq"
    let kept := sampleCalls.map fun c => !forged strangerLibraries sampleMade c
    strangerLibraries.Documented ∧ kept = [true, false, true] ∧
      replay (serve strangerLibraries sampleParty) srv (select kept sampleCalls) =
        replay (serve strangerLibraries sampleParty) srv sampleCalls ∧
      outputs (serve strangerLibraries sampleParty) (reply strangerLibraries sampleParty) srv
          (select kept sampleCalls) =
        select kept (outputs (serve strangerLibraries sampleParty)
          (reply strangerLibraries sampleParty) srv sampleCalls) :=
  ⟨strangerLibraries_documented, by decide +kernel,
    forged_no_influence (Server.create "hq") sampleCalls sampleCalls_authentic⟩

theorem stored_rows_sealed_example :
    let srv := replay (serve strangerLibraries sampleParty) (Server.new "hq" { nodeId := "hq" } {})
      sampleCalls
    AttributedRows (sealedOps strangerLibraries sampleParty sampleMade) srv.localStore ∧
      (srv.localStore.get ("incidents", "r") true).map Record.lastModifiedBy = some "a" :=
  ⟨stored_rows_sealed "hq" { nodeId := "hq" } {} sampleCalls sampleCalls_authentic,
    by decide +kernel⟩

end Dhava.Wire
