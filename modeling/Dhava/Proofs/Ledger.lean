import Dhava.Foundations.Run
import Dhava.Proofs.Request
import Dhava.Proofs.Session
import Dhava.Spec.Channel

/-! At least once. An operation leaves the outbox only by way of `synced`, and becomes
`synced` only by a response to a request in which the server completed it. -/

namespace Dhava

open Foundations

variable {V : Type}

namespace Net

/-- Every message and every outbox row is accounted for by what was enqueued, and every
acknowledgement by what the server completed. -/
structure Ledger (net : Net V) : Prop where
  ids : ∀ a ∈ net.enqueued, ∀ b ∈ net.enqueued, a.opId = b.opId → a = b
  rows : ∀ r ∈ net.engine.outbox.rows, r.asCreated ∈ net.enqueued
  states : ∀ r ∈ net.engine.outbox.rows, r.syncState ≠ .conflicted
  requests : ∀ req ∈ net.requests, ∀ dicts, Server.unpackRequest req = .ok dicts →
    ∀ d ∈ dicts, ∀ op, Operation.fromDict d = .ok op → op.asCreated ∈ net.enqueued
  completed : ∀ op ∈ net.completed, op.asCreated ∈ net.enqueued
  responses : ∀ resp ∈ net.responses, ∀ opId ∈ resp.ackedOpIds,
    ∃ op ∈ net.completed, op.opId = opId
  synced : ∀ r ∈ net.engine.outbox.rows, r.syncState = .synced →
    ∃ o ∈ net.completed, o.asCreated = r.asCreated
  kept : ∀ op ∈ net.enqueued, (∃ o ∈ net.completed, o.asCreated = op) ∨
    ∃ r ∈ net.engine.outbox.rows, r.asCreated = op

theorem ledger_init (nodeId : String) (config : EngineConfig) (server : Server V) :
    (init nodeId config server).Ledger where
  ids := by intro a ha; simp [init] at ha
  rows := by
    intro r hr
    obtain ⟨r₀, h₀, -⟩ := OutboxQueue.mem_resetInFlight.1 hr
    simp at h₀
  states := by
    intro r hr
    obtain ⟨r₀, h₀, -⟩ := OutboxQueue.mem_resetInFlight.1 hr
    simp at h₀
  requests := by intro req hreq; simp [init] at hreq
  completed := by intro op hop; simp [init] at hop
  responses := by intro resp hresp; simp [init] at hresp
  synced := by
    intro r hr
    obtain ⟨r₀, h₀, -⟩ := OutboxQueue.mem_resetInFlight.1 hr
    simp at h₀
  kept := by intro op hop; simp [init] at hop

/-- A step of the engine that only touches the sync columns, synced rows being completed
ones, and that drops only completed rows. -/
theorem Ledger.of_rows {net : Net V} (h : net.Ledger) {engine : Engine V}
    (sessions : List (List (Operation V)))
    (hold : ∀ r ∈ engine.outbox.rows, ∃ r₀ ∈ net.engine.outbox.rows, r.asCreated = r₀.asCreated ∧
      r.syncState ≠ .conflicted ∧
      (r.syncState = .synced → ∃ o ∈ net.completed, o.asCreated = r.asCreated))
    (hkeep : ∀ r₀ ∈ net.engine.outbox.rows, (∃ o ∈ net.completed, o.asCreated = r₀.asCreated) ∨
      ∃ r ∈ engine.outbox.rows, r.asCreated = r₀.asCreated) :
    ({ net with engine, sessions } : Net V).Ledger := by
  refine { h with rows := ?_, states := ?_, synced := ?_, kept := ?_ }
  · intro r hr
    obtain ⟨r₀, h₀, he, -⟩ := hold r hr
    exact he ▸ h.rows r₀ h₀
  · intro r hr
    obtain ⟨-, -, -, hs, -⟩ := hold r hr
    exact hs
  · intro r hr hs
    obtain ⟨-, -, -, -, hsync⟩ := hold r hr
    exact hsync hs
  · intro op hop
    rcases h.kept op hop with hdone | ⟨r₀, h₀, rfl⟩
    · exact Or.inl hdone
    · exact hkeep r₀ h₀

/-- The special case where the rows stay as they are. -/
theorem Ledger.of_rows_eq {net : Net V} (h : net.Ledger) {engine : Engine V}
    (sessions : List (List (Operation V)))
    (hrows : engine.outbox.rows = net.engine.outbox.rows) :
    ({ net with engine, sessions } : Net V).Ledger := by
  apply h.of_rows sessions
  · intro r hr
    rw [hrows] at hr
    exact ⟨r, hr, rfl, h.states r hr, h.synced r hr⟩
  · intro r₀ h₀
    exact Or.inr ⟨r₀, hrows.symm ▸ h₀, rfl⟩

theorem ledger_restart {net : Net V} (h : net.Ledger) {engine : Engine V}
    (hrows : engine.outbox.rows = net.engine.outbox.resetInFlight.rows) :
    ({ net with engine, sessions := [] } : Net V).Ledger := by
  apply h.of_rows
  · intro r hr
    rw [hrows] at hr
    obtain ⟨r₀, h₀, rfl⟩ := OutboxQueue.mem_resetInFlight.1 hr
    refine ⟨r₀, h₀, by split_ifs <;> rfl, ?_, ?_⟩
    · split_ifs
      · simp
      · exact h.states r₀ h₀
    · intro hs
      split_ifs at hs ⊢
      exact h.synced r₀ h₀ hs
  · intro r₀ h₀
    refine Or.inr ⟨_, hrows ▸ OutboxQueue.mem_resetInFlight.2 ⟨r₀, h₀, rfl⟩, ?_⟩
    split_ifs <;> rfl

theorem ledger_markFailed {net : Net V} (h : net.Ledger) {engine : Engine V}
    (sessions : List (List (Operation V))) {ids : List String} {error : String}
    (hrows : engine.outbox.rows = (net.engine.outbox.markFailed ids error).rows) :
    ({ net with engine, sessions } : Net V).Ledger := by
  apply h.of_rows
  · intro r hr
    rw [hrows] at hr
    obtain ⟨r₀, h₀, rfl⟩ := OutboxQueue.mem_markFailed.1 hr
    refine ⟨r₀, h₀, by split_ifs <;> rfl, ?_, ?_⟩
    · split_ifs
      · simp
      · exact h.states r₀ h₀
    · intro hs
      split_ifs at hs ⊢
      exact h.synced r₀ h₀ hs
  · intro r₀ h₀
    refine Or.inr ⟨_, hrows ▸ OutboxQueue.mem_markFailed.2 ⟨r₀, h₀, rfl⟩, ?_⟩
    split_ifs <;> rfl

/-- Marking what a response of the server lists marks completed operations: ids tell
enqueued operations apart. -/
theorem ledger_markSynced {net : Net V} (h : net.Ledger) {engine : Engine V}
    (sessions : List (List (Operation V))) {resp : SyncPullResponse V} (hresp : resp ∈ net.responses)
    {now : ℚ} (hrows : engine.outbox.rows = (net.engine.outbox.markSynced resp.ackedOpIds now).rows) :
    ({ net with engine, sessions } : Net V).Ledger := by
  apply h.of_rows
  · intro r hr
    rw [hrows] at hr
    obtain ⟨r₀, h₀, rfl⟩ := OutboxQueue.mem_markSynced.1 hr
    refine ⟨r₀, h₀, by split_ifs <;> rfl, ?_, ?_⟩
    · split_ifs
      · simp
      · exact h.states r₀ h₀
    · intro hs
      split_ifs at hs ⊢ with hack
      · obtain ⟨o, ho, hid⟩ := h.responses resp hresp _ hack
        exact ⟨o, ho, h.ids _ (h.completed o ho) _ (h.rows r₀ h₀) hid⟩
      · exact h.synced r₀ h₀ hs
  · intro r₀ h₀
    refine Or.inr ⟨_, hrows ▸ OutboxQueue.mem_markSynced.2 ⟨r₀, h₀, rfl⟩, ?_⟩
    split_ifs <;> rfl

theorem ledger_call {net : Net V} (h : net.Ledger) {c : LocalCall V} (hc : net.Fresh (.call c)) :
    (net.call c).Ledger := by
  unfold call
  have hcases := net.engine.call_cases c
  generalize net.engine.call c = result at hcases ⊢
  rcases result with ⟨engine, exc | ⟨op, rec⟩⟩
  · rcases hcases with ⟨hok, -⟩ | ⟨-, hrows, -⟩
    · cases hok
    · exact h.of_rows_eq net.sessions hrows
  rcases hcases with ⟨hok, hrows⟩ | ⟨⟨exc, herr⟩, -⟩
  · obtain ⟨rfl, -⟩ := Prod.mk.inj (Except.ok.inj hok)
    simp only at hrows
    have hnew : ∀ a ∈ net.enqueued, a.opId ≠ (net.engine.stamped c).opId := hc
    refine ⟨?_, ?_, ?_, ?_, ?_, h.responses, ?_, ?_⟩
    · intro a ha b hb hid
      simp only [List.mem_append, List.mem_singleton] at ha hb
      rcases ha with ha | rfl <;> rcases hb with hb | rfl
      · exact h.ids a ha b hb hid
      · exact absurd hid (hnew a ha)
      · exact absurd hid.symm (hnew b hb)
      · rfl
    · intro r hr
      simp only [hrows, List.mem_append, List.mem_singleton] at hr
      rcases hr with hr | rfl
      · exact List.mem_append_left _ (h.rows r hr)
      · exact List.mem_append_right _ (List.mem_singleton_self _)
    · intro r hr
      simp only [hrows, List.mem_append, List.mem_singleton] at hr
      rcases hr with hr | rfl
      · exact h.states r hr
      · simp
    · intro req hreq dicts hu d hd o ho
      exact List.mem_append_left _ (h.requests req hreq dicts hu d hd o ho)
    · intro o ho
      exact List.mem_append_left _ (h.completed o ho)
    · intro r hr hs
      simp only [hrows, List.mem_append, List.mem_singleton] at hr
      rcases hr with hr | rfl
      · exact h.synced r hr hs
      · simp at hs
    · intro o ho
      simp only [List.mem_append, List.mem_singleton] at ho
      rcases ho with ho | rfl
      · rcases h.kept o ho with hdone | ⟨r, hr, he⟩
        · exact Or.inl hdone
        · exact Or.inr ⟨r, by simp [hrows, hr], he⟩
      · refine Or.inr ⟨net.engine.stamped c, ?_, rfl⟩
        simp [hrows]
  · cases herr

theorem ledger_send {net : Net V} (h : net.Ledger) (sessionId : String) (bandwidthBps : ℤ) :
    (net.send sessionId bandwidthBps).Ledger := by
  have hbase : ({ net with
      engine := (net.engine.beginSync sessionId bandwidthBps).1
      sessions := net.sessions ++ [net.engine.pendingBatch bandwidthBps] } : Net V).Ledger :=
    h.of_rows_eq _ (OutboxQueue.rows_lock _)
  refine { hbase with requests := ?_ }
  intro req hreq dicts hu d hd op hop
  rcases List.mem_append.1 hreq with hreq | hreq
  · exact h.requests req hreq dicts hu d hd op hop
  · -- the new request carries rows of the outbox
    obtain rfl := List.mem_singleton.1 hreq
    obtain rfl := Except.ok.inj hu
    obtain ⟨r, hr, rfl⟩ := List.mem_map.1 hd
    rw [Operation.fromDict_toDict] at hop
    obtain rfl := Except.ok.inj hop
    exact h.rows r (OutboxQueue.mem_getPending hr).1

theorem ledger_serve {net : Net V} (h : net.Ledger) (i : ℕ) (faults : ℕ → Option Fault)
    (now : Readings) :
    (net.serve i faults now).Ledger := by
  unfold serve
  cases hreq : net.requests[i]? with
  | none => exact h
  | some req =>
    have hmem : req ∈ net.requests := List.mem_of_getElem? hreq
    refine { h with completed := ?_, responses := ?_, synced := ?_, kept := ?_ }
    · intro op hop
      rcases List.mem_append.1 hop with hop | hop
      · exact h.completed op hop
      · obtain ⟨dicts, hu, d, hd, ho⟩ := net.server.mem_completedBy faults req hop
        exact h.requests req hmem dicts hu d hd op ho
    · intro resp hresp opId hid
      rcases List.mem_append.1 hresp with hresp | hresp
      · obtain ⟨op, hop, ho⟩ := h.responses resp hresp opId hid
        exact ⟨op, List.mem_append_left _ hop, ho⟩
      · obtain rfl := List.mem_singleton.1 hresp
        obtain ⟨op, hop, ho⟩ := net.server.acked_completed faults now req hid
        exact ⟨op, List.mem_append_right _ hop, ho⟩
    · intro r hr hs
      obtain ⟨o, ho, he⟩ := h.synced r hr hs
      exact ⟨o, List.mem_append_left _ ho, he⟩
    · intro op hop
      rcases h.kept op hop with ⟨o, ho, he⟩ | hrow
      · exact Or.inl ⟨o, List.mem_append_left _ ho, he⟩
      · exact Or.inr hrow

theorem ledger_receive {net : Net V} (h : net.Ledger) (j : ℕ) (now : ℚ) (faults : ℕ → Option Fault)
    (reply : Reply) : (net.receive j now faults reply).Ledger := by
  -- whatever the exchange is, a response in it is one of the server's
  have hfinish : ∀ (ops : List (Operation V)) (x : Exchange V),
      (∀ resp, x.accepted = some resp → resp ∈ net.responses) →
      ({ net with
          engine := (net.engine.finishSync ops now faults x).1
          sessions := net.sessions.eraseIdx j } : Net V).Ledger := by
    intro ops x hx
    rcases net.engine.rows_finishSync now faults x ops with
      ⟨error, -, hrows⟩ | ⟨resp, hacc, hrows⟩ | ⟨-, -, hrows⟩
    · exact ledger_markFailed h _ hrows
    · exact ledger_markSynced h _ (hx resp hacc) hrows
    · exact h.of_rows_eq _ hrows
  unfold receive
  cases net.sessions[j]? with
  | none => exact h
  | some ops =>
    rcases reply with error | exc | k
    · exact hfinish ops (.failed error) fun resp hacc => by cases hacc
    · exact hfinish ops (.undecodable exc) fun resp hacc => by cases hacc
    · cases hk : net.responses[k]? with
      | none => simpa [hk] using h
      | some resp =>
        simp only [hk, Option.map_some]
        apply hfinish ops (.response resp)
        intro resp' hacc
        obtain ⟨he, -⟩ := Exchange.eq_of_accepted hacc
        obtain rfl := Exchange.response.inj he
        exact List.mem_of_getElem? hk

theorem ledger_step {net : Net V} (h : net.Ledger) (ev : NetEvent V) (hev : net.Fresh ev) :
    (net.step ev).Ledger := by
  cases ev with
  | call c => exact ledger_call h hev
  | dieInCall c => exact ledger_restart h rfl
  | noTransport => exact h.of_rows_eq net.sessions rfl
  | sendRaises bandwidthBps exc => exact h.of_rows_eq net.sessions (OutboxQueue.rows_lock _)
  | send sessionId bandwidthBps => exact ledger_send h sessionId bandwidthBps
  | serve i faults now => exact ledger_serve h i faults now
  | receive j now faults reply => exact ledger_receive h j now faults reply
  | restart => exact ledger_restart h rfl
  | purge now older =>
    apply h.of_rows net.sessions
    · intro r hr
      have hr := (OutboxQueue.mem_purgeSynced.1 hr).1
      exact ⟨r, hr, rfl, h.states r hr, h.synced r hr⟩
    · intro r₀ h₀
      by_cases hs : r₀.syncState = .synced
      · exact Or.inl (h.synced r₀ h₀ hs)
      · exact Or.inr ⟨r₀, OutboxQueue.mem_purgeSynced.2 ⟨h₀, fun hp => hs hp.1⟩, rfl⟩
  | register now nodeId => exact { h with }

/-- Over any losses, delays, repetitions, crashes and purges, every operation that was ever
enqueued is still waiting in the outbox as it was created, or the server has completed it;
and no purge drops a row that the server has not completed. -/
theorem at_least_once (nodeId : String) (config : EngineConfig) (server : Server V)
    (evs : List (NetEvent V)) (hfresh : Admitted step Fresh (init nodeId config server) evs) :
    let net := replay step (init nodeId config server) evs
    (∀ op ∈ net.enqueued,
        (∃ r ∈ net.engine.outbox.rows, (r.syncState = .pending ∨ r.syncState = .failed) ∧
          r.asCreated = op) ∨
        ∃ o ∈ net.completed, o.asCreated = op) ∧
      ∀ now older, ∀ r ∈ net.engine.outbox.rows,
        r ∉ (net.engine.outbox.purgeSynced now older).rows →
          ∃ o ∈ net.completed, o.asCreated = r.asCreated := by
  intro net
  have h : net.Ledger := hfresh.invariant (ledger_init nodeId config server)
    fun net ev hn hev => ledger_step hn ev hev
  constructor
  · intro op hop
    rcases h.kept op hop with hdone | ⟨r, hr, rfl⟩
    · exact Or.inr hdone
    · cases hs : r.syncState with
      | pending => exact Or.inl ⟨r, hr, Or.inl hs, rfl⟩
      | failed => exact Or.inl ⟨r, hr, Or.inr hs, rfl⟩
      | synced => exact Or.inr (h.synced r hr hs)
      | conflicted => exact absurd hs (h.states r hr)
  · intro now older r hr hgone
    by_contra hno
    refine hgone (OutboxQueue.mem_purgeSynced.2 ⟨hr, fun hp => hno ?_⟩)
    exact h.synced r hr hp.1

/-- One report, sent, acknowledged by a repeated response and purged. -/
def sampleEvents : List (NetEvent ℕ) :=
  [.call { opType := .create, collection := "incidents", recordId := "r", opId := "u", now := 0,
           enqueuedAt := 0 },
    .send "1" 2000000, .serve 0 noFaults 1, .receive 0 2 noFaults (.lost "timeout"), .restart,
    .send "2" 2000000, .receive 0 3 noFaults (.delivered 0), .purge 100 10]

theorem at_least_once_example :
    let net := replay step (init "edge" {} (Server.create "hq")) sampleEvents
    (∀ op ∈ net.enqueued,
        (∃ r ∈ net.engine.outbox.rows, (r.syncState = .pending ∨ r.syncState = .failed) ∧
          r.asCreated = op) ∨
        ∃ o ∈ net.completed, o.asCreated = op) ∧
      ∀ now older, ∀ r ∈ net.engine.outbox.rows,
        r ∉ (net.engine.outbox.purgeSynced now older).rows →
          ∃ o ∈ net.completed, o.asCreated = r.asCreated :=
  at_least_once "edge" {} (Server.create "hq") sampleEvents (by decide +kernel)

end Net
end Dhava
