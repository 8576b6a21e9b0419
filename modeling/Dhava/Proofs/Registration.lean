import Dhava.Foundations.Run
import Dhava.Proofs.Request

/-! Nodes that nobody registered. The registry is asked before anything else is done, and
the entry a request leaves in it is under the id that was found there. -/

namespace Dhava

open Foundations

variable {V : Type}

namespace ServerCall

/-- The ids passed to `register_node` so far. -/
def enroll (known : List String) : ServerCall V → List String
  | .register _ nodeId _ _ => nodeId :: known
  | .request .. => known

/-- Not a request of a node that is not among them. -/
def registered (known : List String) : ServerCall V → Bool
  | .register .. => true
  | .request _ _ req => req.nodeId ∈ known

/-- Which calls of a sequence are left when the requests of nodes not registered before
them are deleted. `known` are the ids registered before the sequence. -/
def registeredFirst (known : List String) (calls : List (ServerCall V)) : List Bool :=
  mask enroll registered known calls

end ServerCall

namespace Server

theorem getNodeStatus_registerNode (srv : Server V) (now : ℚ) (nodeId : String)
    (publicKey : Option (List UInt8)) (metadata : Dict String V) {n : String} (hn : n ≠ nodeId) :
    (srv.registerNode now nodeId publicKey metadata).getNodeStatus n = srv.getNodeStatus n := by
  unfold getNodeStatus registerNode
  rw [Keyed.find?_upsert, if_neg hn]

theorem getNodeStatus_telemetry (srv : Server V) (now : Readings) (nodeId : String) (opsSynced : ℕ)
    (status : String) {n : String} (hn : n ≠ nodeId) (h : srv.getNodeStatus n = none) :
    (srv.updateNodeSyncTelemetry now nodeId opsSynced status).getNodeStatus n = none := by
  have hreg := srv.getNodeStatus_registerNode now.registered nodeId none ∅ hn
  unfold getNodeStatus at hreg h ⊢
  unfold updateNodeSyncTelemetry
  rw [Keyed.find?_update, hreg, h]
  rfl

/-- A request leaves the registry alone but for the entry of its own node. -/
theorem getNodeStatus_handleSyncRequest (srv : Server V) (faults : ℕ → Option Fault) (now : Readings)
    (req : SyncPushRequest V) {n : String} (hn : n ≠ req.nodeId) (h : srv.getNodeStatus n = none) :
    (srv.handleSyncRequest faults now req).1.getNodeStatus n = none := by
  have hloop : ∀ dicts, (srv.pushLoop faults dicts).server.getNodeStatus n = none := by
    intro dicts
    unfold getNodeStatus
    rw [(srv.pushLoop_frame faults dicts).2.1]
    exact h
  rcases srv.handleSyncRequest_ends faults now req with
    ⟨error, hresult, -⟩ | ⟨dicts, -, -, ⟨exc, error, -, hresult⟩ | ⟨-, hresult⟩⟩
  · rw [hresult]
    exact h
  · rw [hresult]
    exact hloop dicts
  · rw [hresult]
    exact getNodeStatus_telemetry _ _ _ _ _ hn (hloop dicts)

theorem config_handleSyncRequest (srv : Server V) (faults : ℕ → Option Fault) (now : Readings)
    (req : SyncPushRequest V) : (srv.handleSyncRequest faults now req).1.config = srv.config := by
  rcases srv.handleSyncRequest_ends faults now req with
    ⟨error, hresult, -⟩ | ⟨dicts, -, -, ⟨exc, error, -, hresult⟩ | ⟨-, hresult⟩⟩
  · rw [hresult]
  · rw [hresult]
    exact config_of_identity (srv.pushLoop_frame faults dicts).1
  · rw [hresult]
    exact config_of_identity (srv.pushLoop_frame faults dicts).1

/-- Registration is required, and only ids passed to `register_node` are in the registry. -/
structure OnlyKnown (known : List String) (srv : Server V) : Prop where
  required : srv.config.nodeRegistrationRequired = true
  registry : ∀ n, n ∉ known → srv.getNodeStatus n = none

theorem onlyKnown_serve {known : List String} {srv : Server V} (h : OnlyKnown known srv)
    (c : ServerCall V) (hc : c.registered known = true) : OnlyKnown (c.enroll known) (srv.serve c) := by
  cases c with
  | register now nodeId publicKey metadata =>
    refine ⟨h.required, fun n hn => ?_⟩
    have hne : n ≠ nodeId := fun he => hn (by simp [ServerCall.enroll, he])
    have hold : n ∉ known := fun hk => hn (List.mem_cons_of_mem _ hk)
    exact (srv.getNodeStatus_registerNode _ _ _ _ hne).trans (h.registry n hold)
  | request faults now req =>
    have hknown : req.nodeId ∈ known := of_decide_eq_true hc
    refine ⟨?_, fun n hn => ?_⟩
    · unfold serve
      rw [config_handleSyncRequest]
      exact h.required
    · have hne : n ≠ req.nodeId := fun he => hn (he ▸ hknown)
      exact srv.getNodeStatus_handleSyncRequest faults now req hne (h.registry n hn)

/-- The request of an id that is not known changes nothing at all. -/
theorem serve_unknown {known : List String} {srv : Server V} (h : OnlyKnown known srv)
    (c : ServerCall V) (hc : c.registered known = false) :
    srv.serve c = srv ∧ OnlyKnown (c.enroll known) srv := by
  cases c with
  | register now nodeId publicKey metadata => cases hc
  | request faults now req =>
    have hstatus := h.registry req.nodeId (of_decide_eq_false hc)
    refine ⟨?_, h⟩
    have hrefuses : srv.refuses req.nodeId = true := by
      rw [refuses, h.required, hstatus]
      rfl
    rcases srv.handleSyncRequest_ends faults now req with ⟨error, hresult, -⟩ | ⟨dicts, hpasses, -⟩
    · exact congrArg Prod.fst hresult
    · rw [hrefuses] at hpasses
      cases hpasses

/-- Where registration is required, a sequence of calls ends the same and gives the
remaining requests the same responses when every request of a node not registered before
it is deleted. -/
theorem unregistered_no_influence (srv : Server V)
    (hrequired : srv.config.nodeRegistrationRequired = true) (known : List String)
    (hknown : ∀ n, n ∉ known → srv.getNodeStatus n = none) (calls : List (ServerCall V)) :
    let kept := ServerCall.registeredFirst known calls
    replay serve srv (select kept calls) = replay serve srv calls ∧
      outputs serve reply srv (select kept calls) = select kept (outputs serve reply srv calls) :=
  replay_select (I := OnlyKnown) (fun _ _ c _ h hc => onlyKnown_serve h c hc)
    (fun _ _ c _ h hc => serve_unknown h c hc) ⟨hrequired, hknown⟩

theorem unregistered_no_influence_example :
    let srv : Server ℕ := Server.create "hq" { nodeRegistrationRequired := true }
    let req (nodeId : String) : SyncPushRequest ℕ :=
      { nodeId, sessionId := "s", operationCount := 0, senderVectorClock := ∅
        encryptedPayload := .empty, hashMatches := true }
    let calls : List (ServerCall ℕ) :=
      [.request noFaults 0 (req "a"), .register 1 "a" none ∅, .request noFaults 2 (req "a"),
        .request noFaults 3 (req "b")]
    let kept := ServerCall.registeredFirst [] calls
    replay serve srv (select kept calls) = replay serve srv calls ∧
      outputs serve reply srv (select kept calls) = select kept (outputs serve reply srv calls) :=
  unregistered_no_influence (Server.create "hq" { nodeRegistrationRequired := true }) rfl []
    (fun _ _ => rfl) _

end Server
end Dhava
