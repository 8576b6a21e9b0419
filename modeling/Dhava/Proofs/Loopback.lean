import Dhava.Proofs.Compression
import Dhava.Proofs.Exchange
import Dhava.Spec.Wire

/-! Sessions in bytes and sessions of decoded messages. Where the two ends read each other's
payloads and MessagePack gives back what it packed, a session in bytes does what the session
of the decoded messages does, and so does every run of them. -/

namespace Dhava.Wire

open Foundations

variable {V : Type}

/-- Unpacking gives back what was packed. What does not pack raises. -/
def Packing.Faithful {α : Type} (m : Packing α) : Prop :=
  ∀ a bytes, m.pack a = .ok bytes → m.unpack bytes = .ok a

structure Libraries.Documented (libs : Libraries V) : Prop where
  crypto : libs.crypto.Documented
  operations : libs.operations.Faithful
  requests : libs.requests.Faithful
  responses : libs.responses.Faithful

/-- Two parties with one key that read each other's format. -/
structure Paired (engine server : Party) : Prop where
  key : engine.crypto.encryptionKey = server.crypto.encryptionKey
  push : engine.crypto.written engine.zstdAvailable ∈ server.crypto.accepted server.zstdAvailable
  pull : server.crypto.written server.zstdAvailable ∈ engine.crypto.accepted engine.zstdAvailable

variable {libs : Libraries V} {engine server : Party}

theorem pack_ne_nil (p : Party) (draw : Draw) (raw : Bytes) : p.pack libs draw raw ≠ [] := by
  intro hnil
  have hlength := congrArg List.length hnil
  rw [Party.pack, CryptoLayer.pack, List.length_append, draw.nonce.2] at hlength
  simp at hlength

theorem Paired.reads_push (h : Paired engine server) (hlibs : libs.Documented) (draw : Draw)
    (raw : Bytes) : server.unpack libs (engine.pack libs draw raw) = .ok raw :=
  (CryptoLayer.reads_iff hlibs.crypto h.key.symm _ _).2 h.push draw.nonce draw.mtime raw

theorem Paired.reads_pull (h : Paired engine server) (hlibs : libs.Documented) (draw : Draw)
    (raw : Bytes) : engine.unpack libs (server.pack libs draw raw) = .ok raw :=
  (CryptoLayer.reads_iff hlibs.crypto h.key _ _).2 h.pull draw.nonce draw.mtime raw

/-! ### The server on a message -/

/-- The payload of a request as the server reads it. A payload whose hash differs is not
unpacked, so nothing is known of its operations. -/
def pushedPayload (libs : Libraries V) (server : Party) (req : SyncPushRequest) : Sealed V :=
  if req.encryptedPayload = [] then .empty
  else
    match server.unpack libs req.encryptedPayload with
    | .error exc => .undecodable exc
    | .ok raw =>
      if libs.hexdigest raw ≠ req.payloadHash then .packed []
      else
        match libs.operations.unpack raw with
        | .error exc => .undecodable exc
        | .ok dicts => .packed dicts

def hashMatches (libs : Libraries V) (server : Party) (req : SyncPushRequest) : Bool :=
  match server.unpack libs req.encryptedPayload with
  | .error _ => true
  | .ok raw => libs.hexdigest raw = req.payloadHash

/-- A message as the server decodes it. -/
def pushedRequest (libs : Libraries V) (server : Party) (req : SyncPushRequest) :
    Dhava.SyncPushRequest V where
  nodeId := req.nodeId
  sessionId := req.sessionId
  operationCount := req.operationCount.toNat
  senderVectorClock := req.senderVectorClock
  encryptedPayload := pushedPayload libs server req
  hashMatches := hashMatches libs server req

theorem unpackRequest_pushedRequest (req : SyncPushRequest) :
    Server.unpackRequest (pushedRequest libs server req) = unpackPush libs server req := by
  unfold Server.unpackRequest pushedRequest pushedPayload unpackPush hashMatches
  by_cases hempty : req.encryptedPayload = []
  · simp only [if_pos hempty]
  · simp only [if_neg hempty]
    cases server.unpack libs req.encryptedPayload with
    | error exc => rfl
    | ok raw =>
      by_cases hhash : libs.hexdigest raw = req.payloadHash
      · have hsame : ¬ libs.hexdigest raw ≠ req.payloadHash := not_not.2 hhash
        simp only [if_neg hsame]
        cases libs.operations.unpack raw with
        | error exc => rfl
        | ok dicts => exact if_pos (decide_eq_true hhash)
      · have hdiffer : libs.hexdigest raw ≠ req.payloadHash := hhash
        simp only [if_pos hdiffer]
        exact if_neg (ne_true_of_eq_false (decide_eq_false hhash))

/-- The delta of a response, packed, sealed, opened and unpacked. -/
theorem Paired.pulledPayload_delta (h : Paired engine server) (hlibs : libs.Documented) (draw : Draw)
    {deltaOps : List (Operation V)} {raw : Bytes}
    (hpack : libs.operations.pack (deltaOps.map Operation.toDict) = .ok raw) :
    pulledPayload libs engine (if deltaOps = [] then [] else server.pack libs draw raw) =
      if deltaOps.isEmpty then .empty else .packed (deltaOps.map Operation.toDict) := by
  cases deltaOps with
  | nil => rfl
  | cons op rest =>
    rw [if_neg (List.cons_ne_nil _ _), pulledPayload, if_neg (pack_ne_nil server draw raw),
      h.reads_pull hlibs]
    simp only
    rw [hlibs.operations _ _ hpack]
    rfl

/-- How the server ends on a message: as on the decoded one, or the delta does not pack. -/
inductive Handled (libs : Libraries V) (engine server : Party) (srv : Server V)
    (faults : ℕ → Option Fault) (draw : ServerDraw) (req : SyncPushRequest) :
    Server V × Except String SyncPullResponse → Prop
  | done (resp : SyncPullResponse)
      (hresp : pulledResponse libs engine resp =
        (srv.handleSyncRequest faults draw.readings (pushedRequest libs server req)).2) :
      Handled libs engine server srv faults draw req
        ((srv.handleSyncRequest faults draw.readings (pushedRequest libs server req)).1, .ok resp)
  | raised (dicts : List (OpDict V)) (exc : String)
      (hdicts : unpackPush libs server req = .ok dicts)
      (hraised : (srv.pushLoop faults dicts).raised = none) :
      Handled libs engine server srv faults draw req ((srv.pushLoop faults dicts).server, .error exc)

theorem Paired.handled (h : Paired engine server) (hlibs : libs.Documented) (srv : Server V)
    (faults : ℕ → Option Fault) (draw : ServerDraw) (req : SyncPushRequest) :
    Handled libs engine server srv faults draw req
      (handleSyncRequest libs server srv faults draw req) := by
  have hdone : ∀ resp, ∀ p : Server V × Dhava.SyncPullResponse V,
      srv.handleSyncRequest faults draw.readings (pushedRequest libs server req) = p →
      pulledResponse libs engine resp = p.2 →
      Handled libs engine server srv faults draw req (p.1, .ok resp) := by
    rintro resp p rfl hresp
    exact Handled.done resp hresp
  by_cases hreg : srv.refuses req.nodeId = true
  · have hrefused : srv.refuses (pushedRequest libs server req).nodeId = true := hreg
    have hstay :
        srv.handleSyncRequest faults draw.readings (pushedRequest libs server req) = (srv, _) :=
      if_pos hrefused
    have hsame : handleSyncRequest libs server srv faults draw req = (srv, _) := if_pos hreg
    rw [hsame]
    exact hdone _ _ hstay rfl
  · have hpasses : ¬ srv.refuses (pushedRequest libs server req).nodeId = true := hreg
    have hgo : srv.handleSyncRequest faults draw.readings (pushedRequest libs server req) = _ :=
      if_neg hpasses
    have hsame : handleSyncRequest libs server srv faults draw req = _ := if_neg hreg
    rw [hsame]
    rw [unpackRequest_pushedRequest] at hgo
    cases hdicts : unpackPush libs server req with
    | error error =>
      rw [hdicts] at hgo
      exact hdone _ _ hgo rfl
    | ok dicts =>
      rw [hdicts] at hgo
      simp only at hgo ⊢
      cases hraised : (srv.pushLoop faults dicts).raised with
      | some exc =>
        rw [hraised] at hgo
        exact hdone _ _ hgo rfl
      | none =>
        rw [hraised] at hgo
        simp only [answer]
        cases hpack : libs.operations.pack (((srv.pushLoop faults dicts).server.getOperationsForPeer
            draw.readings.enqueued (VectorClock.ofDict req.senderVectorClock) req.nodeId).map
              Operation.toDict) with
        | error exc => exact Handled.raised dicts exc hdicts hraised
        | ok raw =>
          refine hdone _ _ hgo ?_
          simp only [pulledResponse, SyncPullResponse.create]
          rw [h.pulledPayload_delta hlibs draw.toDraw hpack]
          rfl

/-! ### A session -/

/-- The message an engine sends is read as what the engine meant. -/
theorem Paired.push_decodes (h : Paired engine server) (hlibs : libs.Documented) {draw : Draw}
    {nodeId sessionId uuid : String} (hsession : sessionId ≠ "") {clock : Dict String ℤ}
    {dicts : List (OpDict V)} {bytes : Bytes} (now : ℚ)
    (hpush : pushBytes libs engine draw nodeId sessionId uuid clock dicts = .ok bytes) :
    ∃ req, SyncPushRequest.deserialize libs.requests now bytes = .ok req ∧
      pushedRequest libs server req =
        { nodeId, sessionId, operationCount := dicts.length, senderVectorClock := clock
          encryptedPayload := .packed dicts, hashMatches := true } := by
  unfold pushBytes at hpush
  cases hpack : libs.operations.pack dicts with
  | error exc =>
    rw [hpack] at hpush
    cases hpush
  | ok raw =>
    rw [hpack] at hpush
    have hread := hlibs.requests _ _ hpush
    refine ⟨_, by rw [SyncPushRequest.deserialize, hread]; exact SyncPushRequest.fromDict_toDict now _, ?_⟩
    have hunpack := h.reads_push hlibs draw raw
    have hpayload := hlibs.operations _ _ hpack
    have hid : ((some sessionId).filter fun s => s ≠ "").getD uuid = sessionId := by
      rw [Option.filter_some, decide_eq_true hsession]
      rfl
    simp only [pushedRequest, pushedPayload, hashMatches, SyncPushRequest.create, hunpack, hpayload,
      if_neg (pack_ne_nil engine draw raw), hid]
    simp

/-- The outcome of a session's exchange, where its request was packed. -/
def Exchanged (libs : Libraries V) (w : World V) (engine server : Party) (n sessionId : String)
    (bandwidthBps : ℤ) (draw : SessionDraw) (outcome : Server V × LinkOutcome) : Prop :=
  ∃ reqBytes, pushBytes libs engine draw.engine (w.nodes n).engine.nodeId sessionId draw.uuid
      (w.nodes n).engine.globalVectorClock.clocks
      (((w.nodes n).engine.pendingBatch bandwidthBps).map Operation.toDict) = .ok reqBytes ∧
    sendReceive libs server w.server noFaults draw.server reqBytes = outcome

/-- Both messages of the session were packed. -/
def Packs (libs : Libraries V) (w : World V) (engine server : Party) (n sessionId : String)
    (bandwidthBps : ℤ) (draw : SessionDraw) : Prop :=
  ∃ srv respBytes,
    Exchanged libs w engine server n sessionId bandwidthBps draw (srv, .response respBytes)

theorem packs_of {w : World V} {n sessionId : String} {bandwidthBps : ℤ} {draw : SessionDraw}
    (reqBytes respBytes : Bytes)
    (hpush : pushBytes libs engine draw.engine (w.nodes n).engine.nodeId sessionId draw.uuid
      (w.nodes n).engine.globalVectorClock.clocks
      (((w.nodes n).engine.pendingBatch bandwidthBps).map Operation.toDict) = .ok reqBytes)
    (hsent : (sendReceive libs server w.server noFaults draw.server reqBytes).2 =
      .response respBytes) : Packs libs w engine server n sessionId bandwidthBps draw :=
  ⟨_, respBytes, reqBytes, hpush, Prod.ext rfl hsent⟩

theorem Exchanged.sync_eq {w : World V} {n sessionId : String} {bandwidthBps : ℤ}
    {draw : SessionDraw} {outcome : Server V × LinkOutcome}
    (h : Exchanged libs w engine server n sessionId bandwidthBps draw outcome) (now : ℚ) :
    sync libs w engine server n sessionId bandwidthBps now draw =
      { server := outcome.1
        nodes := Function.update w.nodes n ((w.nodes n).sync sessionId (some bandwidthBps) now
          noFaults (received libs engine draw.engine outcome.2)) } := by
  obtain ⟨reqBytes, hpush, rfl⟩ := h
  unfold sync
  simp only [hpush]

/-- A session whose request was not packed. -/
theorem sync_eq_of_error {w : World V} {n sessionId : String} {bandwidthBps : ℤ} {draw : SessionDraw}
    {exc : String} (hpush : pushBytes libs engine draw.engine (w.nodes n).engine.nodeId sessionId
      draw.uuid (w.nodes n).engine.globalVectorClock.clocks
      (((w.nodes n).engine.pendingBatch bandwidthBps).map Operation.toDict) = .error exc)
    (server : Party) (now : ℚ) :
    sync libs w engine server n sessionId bandwidthBps now draw =
      { w with nodes := Function.update w.nodes n ((w.nodes n).sync sessionId (some bandwidthBps) now
          noFaults (.notSent exc)) } := by
  unfold sync
  simp only [hpush]

/-- A response the loopback hands over is the server's, on the decoded request. -/
theorem Paired.response_decodes (h : Paired engine server) (hlibs : libs.Documented) {srv srv' : Server V}
    {faults : ℕ → Option Fault} {draw : ServerDraw} {reqBytes respBytes : Bytes} (now : ℚ)
    (hsent : sendReceive libs server srv faults draw reqBytes = (srv', .response respBytes)) :
    ∃ req resp, SyncPushRequest.deserialize libs.requests draw.now reqBytes = .ok req ∧
      SyncPullResponse.deserialize libs.responses now respBytes = .ok resp ∧
      (srv', pulledResponse libs engine resp) =
        srv.handleSyncRequest faults draw.readings (pushedRequest libs server req) := by
  unfold sendReceive at hsent
  cases hreq : SyncPushRequest.deserialize libs.requests draw.now reqBytes with
  | error exc =>
    rw [hreq] at hsent
    cases hsent
  | ok req =>
    have hhandled := h.handled hlibs srv faults draw req
    rw [hreq] at hsent
    simp only at hsent
    generalize handleSyncRequest libs server srv faults draw req = result at hsent hhandled
    cases hhandled with
    | raised dicts exc => cases hsent
    | done resp hresp =>
      simp only at hsent
      cases hpack : resp.serialize libs.responses with
      | error exc =>
        rw [hpack] at hsent
        cases hsent
      | ok bytes =>
        rw [hpack] at hsent
        obtain ⟨rfl, hbytes⟩ := Prod.mk.inj hsent
        obtain rfl := LinkOutcome.response.inj hbytes
        refine ⟨req, resp, rfl, ?_, ?_⟩
        · rw [SyncPullResponse.deserialize, hlibs.responses _ _ hpack]
          exact SyncPullResponse.fromDict_toDict now resp
        · rw [hresp]

/-- A session whose messages pack is the session of the decoded messages. -/
theorem Paired.sync_refines (h : Paired engine server) (hlibs : libs.Documented) {w : World V}
    {n sessionId : String} (hsession : sessionId ≠ "") {bandwidthBps : ℤ} {draw : SessionDraw}
    (hpacks : Packs libs w engine server n sessionId bandwidthBps draw) (now : ℚ) :
    sync libs w engine server n sessionId bandwidthBps now draw =
      w.sync n sessionId (some bandwidthBps) now draw.server.readings := by
  obtain ⟨srv, respBytes, hexchanged⟩ := hpacks
  rw [hexchanged.sync_eq now]
  obtain ⟨reqBytes, hpush, hsent⟩ := hexchanged
  obtain ⟨req, hreq, habstract⟩ := h.push_decodes hlibs hsession draw.server.now hpush
  obtain ⟨req', resp, hreq', hresp, hhandled⟩ := h.response_decodes hlibs draw.engine.now hsent
  obtain rfl : req = req' := Except.ok.inj (hreq.symm.trans hreq')
  have hrequest : pushedRequest libs server req = w.request n sessionId bandwidthBps := by
    rw [habstract, List.length_map]
    rfl
  rw [hrequest] at hhandled
  have hx : received libs engine draw.engine (.response respBytes) =
      .response (pulledResponse libs engine resp) := by
    unfold received
    simp only [hresp]
  simp only [hx, World.sync, ← hhandled]

/-- A session that is not answered leaves the node as it was, but for its state and its outbox. -/
theorem sync_unanswered (node : Node V) (sessionId : String) (bandwidthBps : ℤ) (now : ℚ)
    {x : Exchange V} (hx : x.accepted = none) :
    let node' := node.sync sessionId (some bandwidthBps) now noFaults x
    node'.engine.localStore = node.engine.localStore ∧ node'.processed = node.processed ∧
      node'.acked = node.acked := by
  have hpulled : node.engine.pulled sessionId (some bandwidthBps) now noFaults x =
      ⟨node.engine, {}, [], none⟩ := by
    unfold Engine.pulled
    rw [hx]
  have hsynced := node.engine.syncNow_synced sessionId (some bandwidthBps) now noFaults x
  refine ⟨hsynced.localStore.trans (by rw [hpulled]), ?_, node.acked_sync_of_none _ _ _ _ hx⟩
  change node.processed ++ (node.engine.pulled sessionId _ now noFaults _).processed = _
  rw [hpulled, List.append_nil]

/-- A request that was not sent leaves the outbox alone. -/
theorem rows_sync_notSent (node : Node V) (sessionId : String) (bandwidthBps : ℤ) (now : ℚ)
    (exc : String) :
    (node.sync sessionId (some bandwidthBps) now noFaults (.notSent exc)).engine.outbox.rows =
      node.engine.outbox.rows :=
  OutboxQueue.rows_lock node.engine.outbox

/-- One that was, and is not answered, is marked failed with all its operations. -/
theorem rows_sync_failed (node : Node V) (sessionId : String) (bandwidthBps : ℤ) (now : ℚ)
    (error : String) :
    (node.sync sessionId (some bandwidthBps) now noFaults (.failed error)).engine.outbox.rows =
      (node.engine.outbox.markFailed
        ((node.engine.pendingBatch bandwidthBps).map Operation.opId) error).rows :=
  OutboxQueue.rows_setWhere_congr (OutboxQueue.rows_lock node.engine.outbox) _ _ _

/-- The loopback hands over a response or raises. -/
theorem sendReceive_ends (libs : Libraries V) (server : Party) (srv : Server V)
    (faults : ℕ → Option Fault) (draw : ServerDraw) (reqBytes : Bytes) :
    (∃ respBytes, (sendReceive libs server srv faults draw reqBytes).2 = .response respBytes) ∨
      ∃ exc, (sendReceive libs server srv faults draw reqBytes).2 = .raised exc := by
  unfold sendReceive
  cases SyncPushRequest.deserialize libs.requests draw.now reqBytes with
  | error exc => exact Or.inr ⟨exc, rfl⟩
  | ok req =>
    simp only
    rcases handleSyncRequest libs server srv faults draw req with ⟨srv', exc | resp⟩
    · exact Or.inr ⟨exc, rfl⟩
    · simp only
      cases resp.serialize libs.responses with
      | error exc => exact Or.inr ⟨exc, rfl⟩
      | ok respBytes => exact Or.inl ⟨respBytes, rfl⟩

/-- A session with a message that does not pack pulls nothing and acknowledges nothing. Where
it is the request, nothing has happened; where the server's answer raises, the batch is marked
failed at the node, whatever of it the server has stored. -/
theorem unpacked_session (libs : Libraries V) (w : World V) (engine server : Party)
    (n sessionId : String) (bandwidthBps : ℤ) (now : ℚ) (draw : SessionDraw)
    (hnot : ¬ Packs libs w engine server n sessionId bandwidthBps draw) :
    let e := (w.nodes n).engine
    let push := pushBytes libs engine draw.engine e.nodeId sessionId draw.uuid
      e.globalVectorClock.clocks ((e.pendingBatch bandwidthBps).map Operation.toDict)
    let w' := sync libs w engine server n sessionId bandwidthBps now draw
    (w'.nodes n).engine.localStore = e.localStore ∧
      (w'.nodes n).processed = (w.nodes n).processed ∧ (w'.nodes n).acked = (w.nodes n).acked ∧
      (∀ exc, push = .error exc →
        w'.server = w.server ∧ (w'.nodes n).engine.outbox.rows = e.outbox.rows) ∧
      ∀ reqBytes, push = .ok reqBytes →
        ∃ exc, (sendReceive libs server w.server noFaults draw.server reqBytes).2 = .raised exc ∧
          w'.server = (sendReceive libs server w.server noFaults draw.server reqBytes).1 ∧
          (w'.nodes n).engine.outbox.rows = (e.outbox.markFailed
            ((e.pendingBatch bandwidthBps).map Operation.opId) (transportError exc)).rows := by
  intro e push w'
  cases hpush : push with
  | error exc =>
    have hw' := sync_eq_of_error hpush server now
    have hnode : w'.nodes n = (w.nodes n).sync sessionId (some bandwidthBps) now noFaults
        (.notSent exc) := by
      simp only [w', hw']
      exact Function.update_self ..
    obtain ⟨hstore, hprocessed, hacked⟩ :=
      sync_unanswered (w.nodes n) sessionId bandwidthBps now (x := .notSent exc) rfl
    rw [hnode]
    refine ⟨hstore, hprocessed, hacked, fun _ _ => ⟨by simp only [w', hw'], ?_⟩, fun _ h => by cases h⟩
    exact rows_sync_notSent (w.nodes n) sessionId bandwidthBps now exc
  | ok reqBytes =>
    have hexchanged : Exchanged libs w engine server n sessionId bandwidthBps draw
        (sendReceive libs server w.server noFaults draw.server reqBytes) := ⟨reqBytes, hpush, rfl⟩
    have hw' := hexchanged.sync_eq now
    obtain ⟨exc, hraised⟩ : ∃ exc,
        (sendReceive libs server w.server noFaults draw.server reqBytes).2 = .raised exc := by
      rcases sendReceive_ends libs server w.server noFaults draw.server reqBytes with
        ⟨respBytes, hresponse⟩ | hraised
      · exact absurd ⟨_, respBytes, by rw [← hresponse]; exact hexchanged⟩ hnot
      · exact hraised
    rw [hraised] at hw'
    have hnode : w'.nodes n = (w.nodes n).sync sessionId (some bandwidthBps) now noFaults
        (.failed (transportError exc)) := by
      simp only [w', hw']
      exact Function.update_self ..
    obtain ⟨hstore, hprocessed, hacked⟩ := sync_unanswered (w.nodes n) sessionId bandwidthBps now
      (x := .failed (transportError exc)) rfl
    rw [hnode]
    refine ⟨hstore, hprocessed, hacked, (fun _ h => by cases h), fun _ h => ?_⟩
    obtain rfl := Except.ok.inj h
    refine ⟨exc, hraised, by simp only [w', hw'], ?_⟩
    exact rows_sync_failed (w.nodes n) sessionId bandwidthBps now (transportError exc)

/-! ### Runs -/

/-- Every session has an id, and its messages pack. -/
def Carried (libs : Libraries V) (fleet : Fleet) (w : World V) : Event V → Prop
  | .sync n sessionId (some bandwidthBps) _ draw =>
    sessionId ≠ "" ∧ Packs libs w (fleet.engine n) fleet.server n sessionId bandwidthBps draw
  | _ => True

/-- In a fleet with one key, whose formats are read at both ends, every run in bytes is the
run of the decoded messages. -/
theorem bytes_refine_messages {fleet : Fleet} (hlibs : libs.Documented)
    (hpaired : ∀ n, Paired (fleet.engine n) fleet.server) (w : World V) (evs : List (Event V))
    (hevs : Admitted (step libs fleet) (Carried libs fleet) w evs) :
    replay (step libs fleet) w evs = replay World.step w (evs.map Event.decoded) := by
  induction evs generalizing w with
  | nil => rfl
  | cons ev rest ih =>
    have hstep : step libs fleet w ev = w.step ev.decoded := by
      cases ev with
      | call n c => rfl
      | register now nodeId => rfl
      | sync n sessionId link now draw =>
        cases link with
        | none => rfl
        | some bandwidthBps => exact (hpaired n).sync_refines hlibs hevs.1.1 hevs.1.2 now
    refine (ih (step libs fleet w ev) hevs.2).trans ?_
    rw [hstep]
    rfl

/-! ### Sample sessions

Nodes `b` and `a` have each written one record, and sync one after the other; what `b` has pushed
is in the delta of `a`. MessagePack is given on the messages of the two sessions. -/

def packText (s : String) : Bytes :=
  let utf8 := s.toByteArray.data.toList
  if utf8.length < 32 then UInt8.ofNat (0xA0 + utf8.length) :: utf8
  else 0xD9 :: UInt8.ofNat utf8.length :: utf8

def packNat (n : ℕ) : Bytes :=
  if n < 128 then [UInt8.ofNat n]
  else if n < 256 then [0xCC, UInt8.ofNat n]
  else [0xCD, UInt8.ofNat (n / 256), UInt8.ofNat n]

def packBytes (bs : Bytes) : Bytes :=
  if bs.length < 256 then 0xC4 :: UInt8.ofNat bs.length :: bs
  else 0xC5 :: UInt8.ofNat (bs.length / 256) :: UInt8.ofNat bs.length :: bs

def packArray (items : List Bytes) : Bytes := UInt8.ofNat (0x90 + items.length) :: items.flatten

def packMap (entries : List (String × Bytes)) : Bytes :=
  (if entries.length < 16 then [UInt8.ofNat (0x80 + entries.length)]
    else [0xDE, 0, UInt8.ofNat entries.length]) ++
  entries.flatMap fun entry => packText entry.1 ++ entry.2

/-- All clocks read zero. -/
def packTime : Bytes := 0xCB :: List.replicate 8 0

def packNone : Bytes := [0xC0]

/-- A packing of the listed values. -/
def Packing.table {α : Type} [DecidableEq α] (rows : List (α × Bytes)) : Packing α where
  pack a :=
    match rows.find? fun row => row.1 = a with
    | some row => .ok row.2
    | none => .error "can not serialize"
  unpack bytes :=
    match rows.find? fun row => row.2 = bytes with
    | some row => .ok row.1
    | none => .error "Unpack failed"

theorem Packing.table_faithful {α : Type} [DecidableEq α] {rows : List (α × Bytes)}
    (hrows : (rows.map Prod.snd).Nodup) : (Packing.table rows).Faithful := by
  intro a bytes hpack
  simp only [table] at hpack ⊢
  cases hfound : rows.find? fun row => row.1 = a with
  | none =>
    rw [hfound] at hpack
    cases hpack
  | some row =>
    rw [hfound] at hpack
    obtain rfl := Except.ok.inj hpack
    have hmem := List.mem_of_find?_eq_some hfound
    have hvalue : row.1 = a := by simpa using List.find?_some hfound
    cases hback : rows.find? fun other => other.2 = row.2 with
    | none => exact absurd (decide_eq_true rfl) (List.find?_eq_none.1 hback row hmem)
    | some other =>
      have hsame : other.2 = row.2 := by simpa using List.find?_some hback
      have hother := List.inj_on_of_nodup_map hrows (List.mem_of_find?_eq_some hback) hmem hsame
      simp only [hother, hvalue]

def sampleParty : Party := ⟨CryptoLayer.sampleLayer .zstd, true⟩

def sampleDraw : Draw := ⟨CryptoLayer.sampleNonce, 0, 0⟩

def sampleServerDraw : ServerDraw := ⟨sampleDraw, 0⟩

def sampleCall (recordId opId : String) : LocalCall ℕ where
  opType := .create
  collection := "incidents"
  recordId
  data := (∅ : Dict String ℕ).insert "level" 3
  opId
  now := 0
  enqueuedAt := 0

/-- The first operation of a node, as its engine pushes it. -/
def sampleOp (n recordId opId : String) : Operation ℕ where
  opId
  nodeId := n
  opType := .create
  collection := "incidents"
  recordId
  payload := (∅ : Dict String ℕ).insert "level" 3
  timestamp := 0
  vectorClock := (∅ : Dict String ℤ).insert n 1
  lamportTimestamp := 1
  enqueuedAt := 0

/-- The row of the first session, as the delta of the second one carries it. -/
def sampleDelta : Operation ℕ := { sampleOp "b" "q" "srv-incidents-q-1" with opType := .update }

def packOperation (op : Operation ℕ) : Bytes :=
  packMap [("op_id", packText op.opId), ("node_id", packText op.nodeId),
    ("op_type", packText op.opType.value), ("collection", packText op.collection),
    ("record_id", packText op.recordId), ("payload", packMap [("level", packNat 3)]),
    ("timestamp", packTime), ("vector_clock", packMap [(op.nodeId, packNat 1)]),
    ("lamport_timestamp", packNat op.lamportTimestamp.toNat),
    ("priority", packText op.priority.value), ("user_id", packNone), ("authority", packNone),
    ("source_module", packText op.sourceModule), ("sync_state", packText op.syncState.value),
    ("synced_at", packNone), ("sync_attempts", packNat op.syncAttempts.toNat),
    ("last_error", packNone), ("enqueued_at", packTime)]

def sampleRaw (op : Operation ℕ) : Bytes := packArray [packOperation op]

def samplePayload (op : Operation ℕ) : Bytes :=
  sampleParty.crypto.pack CryptoLayer.sampleLibraries true CryptoLayer.sampleNonce 0 (sampleRaw op)

/-- The digests of the packed operations, told apart by how the operation's id starts. -/
def sampleHexdigest (raw : Bytes) : String :=
  match raw.drop 11 with
  | 0x31 :: _ => "2409e560bd45f33317433023deee64a28522b0d3af9cd351ec7040d9a8967697"
  | 0x32 :: _ => "eb5d99254f8c2df98e5c84ed13123da9d71b26c0c05c083d35c9e5cff45d807b"
  | _ => "640012e983a7e1f0a76fed6f93e35b30d9f10436f08ec40717f8cbe1df5c83bb"

def sampleRequest (op : Operation ℕ) : SyncPushRequest :=
  SyncPushRequest.create sampleHexdigest op.nodeId ((∅ : Dict String ℤ).insert op.nodeId 1)
    (samplePayload op) (sampleRaw op) 1 (some "s") "u" 0

def packRequest (req : SyncPushRequest) : Bytes :=
  packMap [("protocol_version", packText req.protocolVersion), ("node_id", packText req.nodeId),
    ("session_id", packText req.sessionId), ("timestamp", packTime),
    ("operation_count", packNat req.operationCount.toNat),
    ("payload_size_bytes", packNat req.payloadSizeBytes.toNat),
    ("payload_hash", packText req.payloadHash), ("compression", packText req.compression),
    ("encryption", packText req.encryption),
    ("sender_vector_clock", packMap [(req.nodeId, packNat 1)]),
    ("encrypted_payload", packBytes req.encryptedPayload)]

def sampleResponse (opId : String) (delta : List (Operation ℕ)) : SyncPullResponse :=
  SyncPullResponse.create sampleHexdigest "hq" "s" "ok" [opId] 0 ∅
    (delta.flatMap samplePayload) (delta.flatMap sampleRaw) delta.length

def packResponse (resp : SyncPullResponse) : Bytes :=
  packMap [("protocol_version", packText resp.protocolVersion), ("node_id", packText resp.nodeId),
    ("session_id", packText resp.sessionId), ("timestamp", packTime),
    ("status", packText resp.status), ("error", packNone),
    ("operation_count", packNat resp.operationCount.toNat),
    ("payload_size_bytes", packNat resp.payloadSizeBytes.toNat),
    ("payload_hash", packText resp.payloadHash), ("compression", packText resp.compression),
    ("encryption", packText resp.encryption),
    ("acked_op_ids", packArray (resp.ackedOpIds.map packText)), ("rejected_op_ids", packMap []),
    ("encrypted_payload", packBytes resp.encryptedPayload)]

def sampleLibraries : Libraries ℕ where
  crypto := CryptoLayer.sampleLibraries
  hexdigest := sampleHexdigest
  operations := Packing.table (([] , packArray []) ::
    [sampleOp "b" "q" "1", sampleOp "a" "r" "2", sampleDelta].map fun op =>
      ([op.toDict], sampleRaw op))
  requests := Packing.table ([sampleOp "b" "q" "1", sampleOp "a" "r" "2"].map fun op =>
    ((sampleRequest op).toDict, packRequest (sampleRequest op)))
  responses := Packing.table ([sampleResponse "1" [], sampleResponse "2" [sampleDelta]].map fun resp =>
    (resp.toDict, packResponse resp))

theorem sampleLibraries_documented : sampleLibraries.Documented where
  crypto := CryptoLayer.sampleLibraries_documented
  operations := Packing.table_faithful (by decide +kernel)
  requests := Packing.table_faithful (by decide +kernel)
  responses := Packing.table_faithful (by decide +kernel)

theorem sampleParty_paired : Paired sampleParty sampleParty := ⟨rfl, by decide, by decide⟩

def sampleFleet : Fleet := ⟨fun _ => sampleParty, sampleParty⟩

def sampleWorld : World ℕ := World.init "hq" { nodeId := "hq" } {} fun _ => {}

def sampleSessionDraw : SessionDraw := ⟨sampleDraw, sampleServerDraw, "u"⟩

def sampleSync (n : String) : Event ℕ := .sync n "s" (some 2000000) 0 sampleSessionDraw

def sampleEvents : List (Event ℕ) :=
  [.call "b" (sampleCall "q" "1"), .call "a" (sampleCall "r" "2"), sampleSync "b", sampleSync "a"]

theorem bytes_refine_messages_example :
    replay (step sampleLibraries sampleFleet) sampleWorld sampleEvents =
        replay World.step sampleWorld (sampleEvents.map Event.decoded) ∧
      ((replay World.step sampleWorld (sampleEvents.map Event.decoded)).nodes "a").processed =
        [sampleDelta] := by
  constructor
  · refine bytes_refine_messages sampleLibraries_documented (fun _ => sampleParty_paired) sampleWorld
      sampleEvents ⟨trivial, trivial, ⟨by decide, ?_⟩, ⟨by decide, ?_⟩, trivial⟩
    · exact packs_of (packRequest (sampleRequest (sampleOp "b" "q" "1")))
        (packResponse (sampleResponse "1" [])) (by decide +kernel) (by decide +kernel)
    · exact packs_of (packRequest (sampleRequest (sampleOp "a" "r" "2")))
        (packResponse (sampleResponse "2" [sampleDelta])) (by decide +kernel) (by decide +kernel)
  · decide +kernel

/-- MessagePack has no integers from `2 ^ 64` on. -/
def bigCall : LocalCall ℕ :=
  { sampleCall "r" "2" with data := (∅ : Dict String ℕ).insert "level" (2 ^ 64) }

/-- The libraries of a server that cannot pack the delta. -/
def pushLibraries : Libraries ℕ := { sampleLibraries with
  operations := Packing.table ([sampleOp "b" "q" "1", sampleOp "a" "r" "2"].map fun op =>
    ([op.toDict], sampleRaw op)) }

theorem unpacked_session_example :
    (let w := sampleWorld.step (.call "a" bigCall)
    let w' := sync sampleLibraries w sampleParty sampleParty "a" "s" 2000000 0 sampleSessionDraw
    w'.server = w.server ∧ (w'.nodes "a").engine.outbox.rows = (w.nodes "a").engine.outbox.rows) ∧
    let w := replay (step pushLibraries sampleFleet) sampleWorld (sampleEvents.take 3)
    let w' := sync pushLibraries w sampleParty sampleParty "a" "s" 2000000 0 sampleSessionDraw
    (w'.nodes "a").engine.localStore = (w.nodes "a").engine.localStore ∧
      (w'.nodes "a").engine.outbox.rows =
        ((w.nodes "a").engine.outbox.markFailed ["2"] "can not serialize").rows ∧
      (w'.server.localStore.get ("incidents", "r") true).isSome := by
  constructor
  · intro w w'
    have hraises : pushBytes sampleLibraries sampleParty sampleDraw (w.nodes "a").engine.nodeId "s" "u"
        (w.nodes "a").engine.globalVectorClock.clocks
        (((w.nodes "a").engine.pendingBatch 2000000).map Operation.toDict) =
          .error "can not serialize" := by decide +kernel
    refine (unpacked_session sampleLibraries w sampleParty sampleParty "a" "s" 2000000 0
      sampleSessionDraw ?_).2.2.2.1 _ hraises
    rintro ⟨srv, respBytes, reqBytes, hpush, -⟩
    cases hraises.symm.trans hpush
  · intro w w'
    have hpush : pushBytes pushLibraries sampleParty sampleDraw (w.nodes "a").engine.nodeId "s" "u"
        (w.nodes "a").engine.globalVectorClock.clocks
        (((w.nodes "a").engine.pendingBatch 2000000).map Operation.toDict) =
          .ok (packRequest (sampleRequest (sampleOp "a" "r" "2"))) := by decide +kernel
    have hraises : (sendReceive pushLibraries sampleParty w.server noFaults sampleSessionDraw.server
        (packRequest (sampleRequest (sampleOp "a" "r" "2")))).2 = .raised "can not serialize" := by
      decide +kernel
    have hnot : ¬ Packs pushLibraries w sampleParty sampleParty "a" "s" 2000000
        sampleSessionDraw := by
      rintro ⟨srv, respBytes, reqBytes, hpush', hsent⟩
      obtain rfl := Except.ok.inj (hpush.symm.trans hpush')
      rw [hsent] at hraises
      cases hraises
    obtain ⟨hstore, -, -, -, hanswer⟩ := unpacked_session pushLibraries w sampleParty sampleParty
      "a" "s" 2000000 0 _ hnot
    obtain ⟨exc, hexc, -, hrows⟩ := hanswer _ hpush
    rw [hraises] at hexc
    obtain rfl := LinkOutcome.raised.inj hexc
    have hbatch : ((w.nodes "a").engine.pendingBatch 2000000).map Operation.opId = ["2"] := by
      decide +kernel
    have herror : transportError "can not serialize" = "can not serialize" := by decide
    rw [hbatch, herror] at hrows
    have hw' : w' = sync pushLibraries w sampleParty sampleParty "a" "s" 2000000 0
      sampleSessionDraw := rfl
    rw [← hw'] at hstore hrows
    exact ⟨hstore, hrows, by decide +kernel⟩

end Dhava.Wire
