import Dhava.Proofs.Request
import Dhava.Spec.ServerProcess
import Mathlib.Data.List.ReduceOption

/-! What survives a server process. The counter and the clock that a new process starts over
are read by nothing, so it answers like the one before it, and the registry accounts for every
answered request of every process. -/

namespace Dhava

open Foundations

variable {V : Type}

namespace Server

/-! ### A new process -/

/-- Equal up to what a new process starts over. -/
def SameTables (srv srv' : Server V) : Prop := srv.restart = srv'.restart

variable {srv srv' : Server V}

theorem sameTables_restart (srv : Server V) : srv.restart.SameTables srv := rfl

theorem SameTables.elim (h : srv.SameTables srv') : ∃ lamport clock,
    srv' = { srv with lamportCounter := lamport, globalVectorClock := clock } := by
  refine ⟨srv'.lamportCounter, srv'.globalVectorClock, ?_⟩
  obtain ⟨id, store, resolver, audit, config, lamport, clock, nodes⟩ := srv
  obtain ⟨id', store', resolver', audit', config', lamport', clock', nodes'⟩ := srv'
  unfold SameTables restart at h
  simp only [Server.mk.injEq] at h
  obtain ⟨rfl, rfl, rfl, rfl, rfl, -, -, rfl⟩ := h
  rfl

theorem SameTables.getNodeStatus (h : srv.SameTables srv') (nodeId : String) :
    srv.getNodeStatus nodeId = srv'.getNodeStatus nodeId := by
  obtain ⟨lamport, clock, rfl⟩ := h.elim
  rfl

theorem SameTables.pushOne (h : srv.SameTables srv') (fault : Option Fault) (op : Operation V) :
    (srv.pushOne fault op).1.SameTables (srv'.pushOne fault op).1 ∧
      (srv.pushOne fault op).2 = (srv'.pushOne fault op).2 := by
  obtain ⟨lamport, clock, rfl⟩ := h.elim
  unfold Server.pushOne
  simp only
  cases (srv.conflictResolver.resolve (srv.localStore.get op.key true) op).applies <;>
    cases (decide ((srv.conflictResolver.resolve (srv.localStore.get op.key true) op).comparison =
        some .concurrent) && srv.config.auditEnabled) <;>
    rcases fault with - | (exc | exc | exc) <;>
    exact ⟨rfl, rfl⟩

theorem SameTables.pushLoop (h : srv.SameTables srv') (faults : ℕ → Option Fault)
    (dicts : List (OpDict V)) :
    (srv.pushLoop faults dicts).server.SameTables (srv'.pushLoop faults dicts).server ∧
      (srv.pushLoop faults dicts).processed = (srv'.pushLoop faults dicts).processed ∧
      (srv.pushLoop faults dicts).raised = (srv'.pushLoop faults dicts).raised := by
  induction dicts generalizing srv srv' faults with
  | nil => exact ⟨h, rfl, rfl⟩
  | cons d rest ih =>
    unfold Server.pushLoop
    cases Operation.fromDict d with
    | error exc => exact ⟨h, rfl, rfl⟩
    | ok op =>
      obtain ⟨hone, hraised⟩ := h.pushOne (faults 0) op
      simp only
      rcases hp : srv.pushOne (faults 0) op with ⟨one, - | exc⟩
      · rcases hp' : srv'.pushOne (faults 0) op with ⟨one', - | exc'⟩
        · rw [hp, hp'] at hone
          obtain ⟨htables, hprocessed, hrest⟩ := ih hone fun i => faults (i + 1)
          exact ⟨htables, congrArg (op :: ·) hprocessed, hrest⟩
        · rw [hp, hp'] at hraised
          cases hraised
      · rcases hp' : srv'.pushOne (faults 0) op with ⟨one', - | exc'⟩
        · rw [hp, hp'] at hraised
          cases hraised
        · rw [hp, hp'] at hone hraised
          exact ⟨hone, rfl, hraised⟩

theorem SameTables.answer (h : srv.SameTables srv') (now : Readings) (req : SyncPushRequest V)
    (processed : List (Operation V)) :
    (srv.answer now req processed).1.SameTables (srv'.answer now req processed).1 ∧
      (srv.answer now req processed).2 = (srv'.answer now req processed).2 := by
  obtain ⟨lamport, clock, rfl⟩ := h.elim
  exact ⟨rfl, rfl⟩

theorem SameTables.handleSyncRequest (h : srv.SameTables srv') (faults : ℕ → Option Fault)
    (now : Readings) (req : SyncPushRequest V) :
    (srv.handleSyncRequest faults now req).1.SameTables (srv'.handleSyncRequest faults now req).1 ∧
      (srv.handleSyncRequest faults now req).2 = (srv'.handleSyncRequest faults now req).2 := by
  have hconfig : srv.config = srv'.config := by
    obtain ⟨lamport, clock, rfl⟩ := h.elim
    rfl
  have herror : ∀ error, srv.errorResponse req error = srv'.errorResponse req error := by
    obtain ⟨lamport, clock, rfl⟩ := h.elim
    exact fun _ => rfl
  unfold Server.handleSyncRequest
  rw [hconfig, h.getNodeStatus, herror]
  split_ifs with hreg
  · exact ⟨h, rfl⟩
  · cases unpackRequest req with
    | error error => exact ⟨h, herror error⟩
    | ok dicts =>
      obtain ⟨htables, hprocessed, hraised⟩ := h.pushLoop faults dicts
      simp only
      rw [hprocessed, hraised]
      cases (srv'.pushLoop faults dicts).raised with
      | some exc => exact ⟨htables, herror _⟩
      | none => exact htables.answer now req _

theorem SameTables.serve (h : srv.SameTables srv') (c : ServerCall V) :
    (srv.serve c).SameTables (srv'.serve c) ∧ srv.reply c = srv'.reply c := by
  cases c with
  | register now nodeId publicKey metadata =>
    obtain ⟨lamport, clock, rfl⟩ := h.elim
    exact ⟨rfl, rfl⟩
  | request faults now req =>
    obtain ⟨htables, hresp⟩ := h.handleSyncRequest faults now req
    exact ⟨htables, congrArg some hresp⟩

/-- Wherever new processes come in between the calls, every response is the one that a single
process would have sent, and the tables end up the same. -/
theorem restarts_unobserved (srv : Server V) (evs : List (ServerEvent V)) :
    let calls := evs.filterMap ServerEvent.call?
    (outputs step output srv evs).reduceOption = (outputs serve reply srv calls).reduceOption ∧
      (replay step srv evs).SameTables (replay serve srv calls) := by
  have hmove : ∀ (srv srv' : Server V) (ev : ServerEvent V) (c : ServerCall V),
      srv.SameTables srv' → ev.call? = some c →
        (srv.step ev).SameTables (srv'.serve c) ∧ srv.output ev = srv'.reply c := by
    intro srv srv' ev c h hcall
    cases ev with
    | call c' =>
      obtain rfl := Option.some.inj hcall
      exact h.serve c'
    | restart => cases hcall
  have hidle : ∀ (srv srv' : Server V) (ev : ServerEvent V), srv.SameTables srv' →
      ev.call? = none → (srv.step ev).SameTables srv' ∧ srv.output ev = none := by
    intro srv srv' ev h hcall
    cases ev with
    | call c => cases hcall
    | restart => exact ⟨(sameTables_restart srv).trans h, rfl⟩
  exact (replay_filterMap hmove hidle (rfl : srv.SameTables srv) evs).symm

/-! ### The account of a node -/

/-- The clock readings of an answered request of the node, with the number of operations
acknowledged. -/
def synced (n : String) (srv : Server V) : ServerEvent V → Option (Readings × ℕ)
  | .call (.request faults now req) =>
    let resp := (srv.handleSyncRequest faults now req).2
    if req.nodeId = n ∧ resp.status = "ok" then some (now, resp.ackedOpIds.length) else none
  | _ => none

/-- The time an answered request or a registration of the node would register it at. -/
def contacted (n : String) (srv : Server V) : ServerEvent V → Option ℚ
  | .call (.register now nodeId _ _) => if nodeId = n then some now else none
  | ev => (srv.synced n ev).map fun sync => sync.1.registered

theorem contacted_of_synced {n : String} {ev : ServerEvent V} {now : Readings} {opsSynced : ℕ}
    (h : srv.synced n ev = some (now, opsSynced)) : srv.contacted n ev = some now.registered := by
  rcases ev with ((c | ⟨faults, at', req⟩) | -)
  · cases h
  · exact congrArg (Option.map fun sync => sync.1.registered) h
  · cases h

def Telemetry.sync (t : Telemetry) (now : ℚ) (opsSynced : ℕ) : Telemetry :=
  { t with
    lastSyncAt := some now, lastSyncStatus := "ok"
    totalOpsSynced := t.totalOpsSynced + opsSynced }

theorem telemetry_of_syncNodes (h : srv'.syncNodes = srv.syncNodes) (n : String) :
    srv'.telemetry n = srv.telemetry n := by
  unfold telemetry Server.getNodeStatus
  rw [h]

theorem telemetry_registerNode (srv : Server V) (now : ℚ) (nodeId : String)
    (publicKey : Option (List UInt8)) (metadata : Dict String V) (n : String) :
    (srv.registerNode now nodeId publicKey metadata).telemetry n =
      if nodeId = n then some ((srv.telemetry n).getD (.fresh now)) else srv.telemetry n := by
  unfold telemetry Server.getNodeStatus registerNode
  rw [Keyed.find?_upsert]
  by_cases hn : nodeId = n
  · rw [if_pos hn.symm, if_pos hn, hn]
    simp only
    cases srv.syncNodes.find? n <;> rfl
  · rw [if_neg (Ne.symm hn), if_neg hn]

theorem telemetry_update (srv : Server V) (now : Readings) (nodeId : String) (opsSynced : ℕ)
    (n : String) :
    (srv.updateNodeSyncTelemetry now nodeId opsSynced "ok").telemetry n =
      if nodeId = n then
        some (((srv.telemetry n).getD (.fresh now.registered)).sync now.synced opsSynced)
      else srv.telemetry n := by
  have hreg := srv.telemetry_registerNode now.registered nodeId none ∅ n
  unfold telemetry Server.getNodeStatus at hreg ⊢
  unfold updateNodeSyncTelemetry
  rw [Keyed.find?_update]
  cases hrow : (srv.registerNode now.registered nodeId).syncNodes.find? n with
  | none =>
    rw [hrow] at hreg
    split_ifs at hreg ⊢
    · cases hreg
    · exact hreg
  | some row =>
    have hid : row.nodeId = n := ((Keyed.find?_eq_some _).1 hrow).2
    rw [hrow] at hreg
    by_cases hn : nodeId = n
    · rw [if_pos hn] at hreg ⊢
      rw [← Option.some.inj hreg]
      simp [hid, hn, Telemetry.sync]
    · rw [if_neg hn] at hreg ⊢
      rw [← hreg]
      simp [hid, Ne.symm hn]

/-- A request that is refused or fails leaves the registry alone. -/
theorem telemetry_failed {srv srv' : Server V} {faults : ℕ → Option Fault} {now : Readings}
    {req : SyncPushRequest V} {error : String} (n : String)
    (htelemetry : srv'.telemetry n = srv.telemetry n)
    (hresult : srv.handleSyncRequest faults now req = (srv', srv.errorResponse req error)) :
    srv.synced n (.call (.request faults now req)) = none ∧
      (srv.step (.call (.request faults now req))).telemetry n = srv.telemetry n := by
  constructor
  · unfold synced
    simp only [hresult]
    exact if_neg fun h => absurd h.2 (by decide : "error" ≠ "ok")
  · change (srv.handleSyncRequest faults now req).1.telemetry n = _
    rw [hresult]
    exact htelemetry

theorem telemetry_request (srv : Server V) (faults : ℕ → Option Fault) (now : Readings)
    (req : SyncPushRequest V) (n : String) :
    (srv.synced n (.call (.request faults now req)) = none ∧
      (srv.step (.call (.request faults now req))).telemetry n = srv.telemetry n) ∨
    ∃ opsSynced, srv.synced n (.call (.request faults now req)) = some (now, opsSynced) ∧
      (srv.step (.call (.request faults now req))).telemetry n =
        some (((srv.telemetry n).getD (.fresh now.registered)).sync now.synced opsSynced) := by
  have hloop : ∀ dicts, (srv.pushLoop faults dicts).server.telemetry n = srv.telemetry n :=
    fun dicts => telemetry_of_syncNodes (srv.pushLoop_frame faults dicts).2.1 n
  rcases srv.handleSyncRequest_ends faults now req with
    ⟨error, hresult, -⟩ | ⟨dicts, -, -, ⟨exc, error, -, hresult⟩ | ⟨-, hresult⟩⟩
  · exact Or.inl (telemetry_failed n rfl hresult)
  · exact Or.inl (telemetry_failed n (hloop dicts) hresult)
  · have hsync : srv.synced n (.call (.request faults now req)) =
        if req.nodeId = n then some (now, (srv.pushLoop faults dicts).processed.length) else none := by
      unfold synced
      simp only [hresult, answer, List.length_map, and_true]
    have htelemetry : (srv.step (.call (.request faults now req))).telemetry n =
        ((srv.pushLoop faults dicts).server.updateNodeSyncTelemetry now req.nodeId
          (srv.pushLoop faults dicts).processed.length "ok").telemetry n := by
      change (srv.handleSyncRequest faults now req).1.telemetry n = _
      rw [hresult]
      rfl
    rw [telemetry_update, hloop] at htelemetry
    by_cases hn : req.nodeId = n
    · rw [if_pos hn] at hsync htelemetry
      exact Or.inr ⟨_, hsync, htelemetry⟩
    · rw [if_neg hn] at hsync htelemetry
      exact Or.inl ⟨hsync, htelemetry⟩

/-- What one event adds to the account. -/
theorem telemetry_step (srv : Server V) (ev : ServerEvent V) (n : String) :
    (srv.step ev).telemetry n =
      match srv.synced n ev with
      | some (now, opsSynced) =>
        some (((srv.telemetry n).getD (.fresh now.registered)).sync now.synced opsSynced)
      | none => (srv.telemetry n).or ((srv.contacted n ev).map .fresh) := by
  rcases ev with ((⟨now, nodeId, publicKey, metadata⟩ | ⟨faults, now, req⟩) | -)
  · change (srv.registerNode now nodeId publicKey metadata).telemetry n =
      (srv.telemetry n).or ((if nodeId = n then some now else none).map Telemetry.fresh)
    rw [telemetry_registerNode]
    split_ifs with hn
    · cases srv.telemetry n <;> rfl
    · exact (Option.or_none).symm
  · rcases srv.telemetry_request faults now req n with ⟨hsync, htelemetry⟩ | ⟨_, hsync, htelemetry⟩
    · have hnone : srv.contacted n (.call (.request faults now req)) = none :=
        congrArg (Option.map fun sync : Readings × ℕ => sync.1.registered) hsync
      rw [hsync, hnone]
      exact htelemetry.trans (Option.or_none).symm
    · rw [hsync]
      exact htelemetry
  · exact (Option.or_none).symm

/-- An account on the contacts of a node and on its syncs. -/
def account (contacts : List ℚ) (syncs : List (Readings × ℕ)) : Option Telemetry :=
  contacts.head?.map fun first =>
    { registeredAt := first
      lastSyncAt := (syncs.map fun sync => sync.1.synced).getLast?
      lastSyncStatus := if syncs = [] then "never" else "ok"
      totalOpsSynced := ((syncs.map Prod.snd).sum : ℕ) }

theorem account_contact (contacts : List ℚ) (now : ℚ) {syncs : List (Readings × ℕ)}
    (h : contacts = [] → syncs = []) :
    account (contacts ++ [now]) syncs = (account contacts syncs).or (some (.fresh now)) := by
  cases contacts with
  | nil =>
    rw [h rfl]
    rfl
  | cons first rest => rfl

theorem account_sync (contacts : List ℚ) (now : Readings) (opsSynced : ℕ)
    {syncs : List (Readings × ℕ)} (h : contacts = [] → syncs = []) :
    account (contacts ++ [now.registered]) (syncs ++ [(now, opsSynced)]) =
      some (((account contacts syncs).getD (.fresh now.registered)).sync now.synced opsSynced) := by
  have hsum : (((syncs ++ [(now, opsSynced)]).map Prod.snd).sum : ℤ) =
      ((syncs.map Prod.snd).sum : ℕ) + (opsSynced : ℤ) := by
    rw [List.map_append, List.sum_append]
    push_cast
    rfl
  cases contacts with
  | nil =>
    rw [h rfl]
    simp [account, Telemetry.fresh, Telemetry.sync]
  | cons first rest => simp [account, Telemetry.sync]

/-- After any calls and restarts the registry row of a node accounts for its history: since
when the server knows it, when it last synced, and all its acknowledged operations. -/
theorem telemetry_accounts (serverNodeId : String) (resolver : ConflictResolver)
    (config : ServerConfig) (evs : List (ServerEvent V)) (n : String) :
    let srv : Server V := new serverNodeId resolver config
    let contacts := (outputs step (contacted n) srv evs).reduceOption
    let syncs := (outputs step (synced n) srv evs).reduceOption
    (replay step srv evs).telemetry n = contacts.head?.map fun first =>
      { registeredAt := first
        lastSyncAt := (syncs.map fun sync => sync.1.synced).getLast?
        lastSyncStatus := if syncs = [] then "never" else "ok"
        totalOpsSynced := ((syncs.map Prod.snd).sum : ℕ) } := by
  intro srv contacts syncs
  -- a node that was never contacted has not synced
  have h : (replay step srv evs).telemetry n = account contacts syncs ∧
      (contacts = [] → syncs = []) := by
    induction evs using List.reverseRecOn with
    | nil => exact ⟨rfl, fun _ => rfl⟩
    | append_singleton evs ev ih =>
      obtain ⟨htelemetry, hempty⟩ := ih
      simp only [contacts, syncs] at htelemetry hempty ⊢
      rw [replay_concat, telemetry_step, htelemetry, outputs_concat, outputs_concat,
        List.reduceOption_append, List.reduceOption_append]
      cases hsync : (replay step srv evs).synced n ev with
      | some sync =>
        obtain ⟨now, opsSynced⟩ := sync
        rw [contacted_of_synced hsync]
        exact ⟨(account_sync _ now opsSynced hempty).symm,
          fun h => absurd h (List.append_ne_nil_of_right_ne_nil _ (List.cons_ne_nil _ _))⟩
      | none =>
        have hnone : [(none : Option (Readings × ℕ))].reduceOption = [] := rfl
        rw [hnone, List.append_nil]
        cases (replay step srv evs).contacted n ev with
        | some now =>
          exact ⟨(account_contact _ now hempty).symm,
            fun h => absurd h (List.append_ne_nil_of_right_ne_nil _ (List.cons_ne_nil _ _))⟩
        | none =>
          have hnone : [(none : Option ℚ)].reduceOption = [] := rfl
          rw [hnone, List.append_nil]
          exact ⟨Option.or_none, hempty⟩
  exact h.1

end Server
end Dhava
