import Dhava.Spec.Transport

/-! What an exchange makes of several links. It commits to the first one that answers the
probe: a link that fails after that is not replaced by the next. -/

namespace Dhava

open Foundations

namespace TransportManager

variable (m : TransportManager)

/-- Every registered name has its place in the preference order. -/
def Ranked (m : TransportManager) : Prop := ∀ name ∈ m.transports, name ∈ m.preferenceOrder

theorem mem_pyInsert {α : Type} (index : ℤ) (x : α) (l : List α) (y : α) :
    y ∈ pyInsert index x l ↔ y = x ∨ y ∈ l := by
  unfold pyInsert
  simp only
  generalize (if index < 0 then max (index + l.length) 0 else min index l.length).toNat = i
  rw [List.mem_append, List.mem_cons, or_left_comm, ← List.mem_append, List.take_append_drop]

/-- Without a preference order of its own a manager ranks what it was made with. -/
theorem ranked_new (transports : List Transport) : (new transports).Ranked := by
  have hmem : ∀ (l : List Transport) (d : Dict String Transport) (name : String),
      name ∈ l.foldl (fun d t => d.insert t.name t) d → name ∈ d ∨ name ∈ l.map Transport.name := by
    intro l
    induction l with
    | nil => exact fun d name h => Or.inl h
    | cons t rest ih =>
      intro d name h
      rcases ih _ name h with hd | hrest
      · rcases Finmap.mem_insert.1 hd with rfl | hold
        · exact Or.inr List.mem_cons_self
        · exact Or.inl hold
      · exact Or.inr (List.mem_cons_of_mem _ hrest)
  intro name h
  have hname := (hmem transports ∅ name h).resolve_left Finmap.notMem_empty
  exact List.mem_eraseDups.2 hname

theorem ranked_addTransport (h : m.Ranked) (t : Transport) (preferenceIndex : Option ℤ) :
    (m.addTransport t preferenceIndex).Ranked := by
  intro name hname
  have hold : name = t.name ∨ name ∈ m.preferenceOrder :=
    (Finmap.mem_insert.1 hname).imp_right (h name)
  unfold addTransport
  simp only
  by_cases hranked : t.name ∈ m.preferenceOrder
  · rw [if_pos hranked]
    rcases hold with rfl | hmem
    · exact hranked
    · exact hmem
  · rw [if_neg hranked]
    cases preferenceIndex with
    | some index => exact (mem_pyInsert _ _ _ _).2 hold
    | none =>
      rw [List.mem_append, List.mem_singleton]
      exact hold.symm

theorem ranked_foldl_addTransport (transports : List Transport)
    (calls : List (Transport × Option ℤ)) :
    (calls.foldl (fun m c => m.addTransport c.1 c.2) (new transports)).Ranked := by
  induction calls using List.reverseRecOn with
  | nil => exact ranked_new transports
  | append_singleton calls c ih =>
    rw [List.foldl_append]
    exact ranked_addTransport _ ih c.1 c.2

/-- The registered transports in preference order. -/
def links : List Transport := m.preferenceOrder.filterMap m.transports.lookup

/-- The link answers the probe and would answer the request. -/
def wouldRespond (requestBytes : Bytes) (t : Transport) : Bool :=
  t.isAvailable && match t.sendReceive requestBytes with
    | .response _ => true
    | _ => false

theorem wouldRespond_iff {requestBytes : Bytes} {t : Transport} :
    wouldRespond requestBytes t = true ↔
      t.isAvailable = true ∧ ∃ resp, t.sendReceive requestBytes = .response resp := by
  unfold wouldRespond
  rw [Bool.and_eq_true]
  cases t.sendReceive requestBytes <;> simp

/-- The active transport is the first available one in preference order. -/
theorem getActiveTransport_eq : m.getActiveTransport.2 = m.links.find? Transport.isAvailable := by
  have hfind : ∀ order : List String,
      (order.findSome? m.probe).map Prod.snd =
        (order.filterMap m.transports.lookup).find? Transport.isAvailable := by
    intro order
    induction order with
    | nil => rfl
    | cons name rest ih =>
      rw [List.findSome?_cons, List.filterMap_cons]
      cases hlookup : m.transports.lookup name with
      | none =>
        have hprobe : m.probe name = none := by rw [probe, hlookup]
        rw [hprobe]
        exact ih
      | some t =>
        cases havail : t.isAvailable with
        | true =>
          have hprobe : m.probe name = some (name, t) := by rw [probe, hlookup]; simp [havail]
          rw [hprobe, List.find?_cons_of_pos havail]
          rfl
        | false =>
          have hprobe : m.probe name = none := by rw [probe, hlookup]; simp [havail]
          rw [hprobe, List.find?_cons_of_neg (by simp [havail])]
          exact ih
  rw [links, ← hfind]
  unfold getActiveTransport
  cases m.preferenceOrder.findSome? m.probe <;> rfl

/-- An exchange succeeds exactly with the response of the active transport. -/
theorem exchange_response_iff (requestBytes resp : Bytes) (elapsed : ℚ) :
    (m.exchange requestBytes elapsed).2.1 = some resp ∧
        (m.exchange requestBytes elapsed).2.2.success = true ↔
      ∃ t, m.links.find? Transport.isAvailable = some t ∧ t.sendReceive requestBytes = .response resp := by
  rw [← getActiveTransport_eq]
  unfold exchange
  rcases m.getActiveTransport with ⟨m', - | t⟩
  · simp
  · cases h : t.sendReceive requestBytes <;> simp [h]

/-- The exchange over a registered transport that is available and would respond: the
response is that of the first of these in preference order. -/
def FailsOver (requestBytes : Bytes) (elapsed : ℚ) : Prop :=
  (∃ name t, m.transports.lookup name = some t ∧ t.isAvailable = true ∧
      ∃ resp, t.sendReceive requestBytes = .response resp) →
    ∃ t resp, m.links.find? (wouldRespond requestBytes) = some t ∧
      t.sendReceive requestBytes = .response resp ∧
      (m.exchange requestBytes elapsed).2.1 = some resp ∧
      (m.exchange requestBytes elapsed).2.2.success = true

/-- An exchange fails over exactly if no registered transport would respond, or the first
available one in preference order does. -/
theorem exchange_fails_over_iff (requestBytes : Bytes) (elapsed : ℚ) :
    m.FailsOver requestBytes elapsed ↔
      (∀ name t, m.transports.lookup name = some t → wouldRespond requestBytes t = false) ∨
        ∃ t, m.links.find? Transport.isAvailable = some t ∧ wouldRespond requestBytes t = true := by
  refine ⟨fun h => ?_, fun h hexists => ?_⟩
  · by_cases hnone : ∀ name t, m.transports.lookup name = some t → wouldRespond requestBytes t = false
    · exact Or.inl hnone
    · push Not at hnone
      obtain ⟨name, t, hlookup, hrespond⟩ := hnone
      obtain ⟨havail, hresp⟩ := wouldRespond_iff.1 (Bool.of_not_eq_false hrespond)
      obtain ⟨_, resp, -, -, hsome, hsuccess⟩ := h ⟨name, t, hlookup, havail, hresp⟩
      obtain ⟨first, hfirst, hok⟩ := (m.exchange_response_iff _ _ _).1 ⟨hsome, hsuccess⟩
      have havailable := List.find?_some hfirst
      exact Or.inr ⟨first, hfirst, wouldRespond_iff.2 ⟨havailable, resp, hok⟩⟩
  · rcases h with hnone | ⟨first, hfirst, hrespond⟩
    · obtain ⟨name, t, hlookup, havail, hresp⟩ := hexists
      have hfalse := hnone name t hlookup
      rw [wouldRespond_iff.2 ⟨havail, hresp⟩] at hfalse
      cases hfalse
    · obtain ⟨-, resp, hok⟩ := wouldRespond_iff.1 hrespond
      refine ⟨first, resp, ?_, hok, (m.exchange_response_iff _ _ _).2 ⟨first, hfirst, hok⟩⟩
      -- whoever would respond is available, so the first available one is the first of both
      obtain ⟨-, before, after, hsplit, hbefore⟩ := List.find?_eq_some_iff_append.1 hfirst
      rw [List.find?_eq_some_iff_append]
      refine ⟨hrespond, before, after, hsplit, fun t ht => ?_⟩
      have hunavailable := hbefore t ht
      simp [wouldRespond] at hunavailable ⊢
      simp [hunavailable]

def sampleLink (name : String) (outcome : LinkOutcome) : Transport where
  name
  isAvailable := true
  sendReceive _ := outcome

/-- Two links that answer the probe. Only the second gets an answer from the server. -/
def sampleManager : TransportManager :=
  new [sampleLink "lte" .noResponse, sampleLink "satcom" (.response [1])]

/-- The second link would have answered. -/
theorem lossy_link_not_replaced :
    (sampleManager.exchange [0] 1).2 =
        (none, { success := false, bytesSent := 1, durationSeconds := 1, transportUsed := "lte"
                 error := some "No response received from remote peer" }) ∧
      ¬ sampleManager.FailsOver [0] 1 := by
  have hresult : (sampleManager.exchange [0] 1).2 =
      (none, { success := false, bytesSent := 1, durationSeconds := 1, transportUsed := "lte"
               error := some "No response received from remote peer" }) := by decide +kernel
  refine ⟨hresult, fun h => ?_⟩
  have hsatcom : sampleManager.transports.lookup "satcom" =
      some (sampleLink "satcom" (.response [1])) :=
    Finmap.lookup_insert ((∅ : Dict String Transport).insert "lte" (sampleLink "lte" .noResponse))
  obtain ⟨_, resp, -, -, hsome, -⟩ := h ⟨"satcom", _, hsatcom, rfl, [1], rfl⟩
  rw [hresult] at hsome
  cases hsome

end TransportManager
end Dhava
