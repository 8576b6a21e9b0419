import Dhava.Spec.ReplyBuffer

/-! Whose reply the buffer of a transport holds. -/

namespace Dhava

open Foundations

section Calls

variable {Outcome : Type} {t : BufferedTransport Outcome} (calls : List (BufferCall Outcome))

@[simp] theorem due_concat_send (outcome : Outcome) :
    t.due (calls ++ [.send outcome]) = t.reply outcome := by
  unfold BufferedTransport.due latestSend
  rw [List.foldl_append]
  rfl

@[simp] theorem due_concat_receive : t.due (calls ++ [.receive]) = none := by
  unfold BufferedTransport.due latestSend
  rw [List.foldl_append]
  generalize calls.foldl _ none = latest
  cases latest <;> rfl

@[simp] theorem received_concat_send (outcome : Outcome) :
    t.received (calls ++ [.send outcome]) =
      (t.send outcome (replay t.step {} calls)).2.lastReceivedBytes := by
  unfold BufferedTransport.received
  rw [replay_concat]
  rfl

@[simp] theorem received_concat_receive : t.received (calls ++ [.receive]) = none := by
  unfold BufferedTransport.received
  rw [replay_concat]
  rfl

end Calls

@[simp] theorem lastReceivedBytes_sendOrClear (resp : Option Bytes) (b : ReplyBuffer) :
    (b.sendOrClear resp).2.lastReceivedBytes = resp := by
  cases resp <;> rfl

/-- A transport whose `send` always puts its own reply into the buffer holds what is due. -/
theorem received_eq_due {Outcome : Type} {t : BufferedTransport Outcome}
    (hsend : ∀ outcome b, (t.send outcome b).2.lastReceivedBytes = t.reply outcome)
    (calls : List (BufferCall Outcome)) : t.received calls = t.due calls := by
  induction calls using List.reverseRecOn with
  | nil => rfl
  | append_singleton calls call ih =>
    cases call with
    | send outcome => rw [received_concat_send, due_concat_send, hsend]
    | receive => rw [received_concat_receive, due_concat_receive]

/-! ### The serial transport -/

namespace SerialTransport

/-- After these calls the buffer holds the reply of a send before the latest one: there was a
reply, and nothing but failing sends since. -/
def Stale (calls : List (BufferCall (Option Bytes))) : Prop :=
  ∃ earlier resp failed, calls = earlier ++ .send (some resp) :: failed ∧
    failed ≠ [] ∧ ∀ call ∈ failed, call = .send none

theorem last_reply_concat {calls : List (BufferCall (Option Bytes))}
    {call : BufferCall (Option Bytes)} {resp : Bytes} :
    (∃ earlier failed, calls ++ [call] = earlier ++ .send (some resp) :: failed ∧
        ∀ call ∈ failed, call = .send none) ↔
      call = .send (some resp) ∨ call = .send none ∧
        ∃ earlier failed, calls = earlier ++ .send (some resp) :: failed ∧
          ∀ call ∈ failed, call = .send none := by
  constructor
  · rintro ⟨earlier, failed, h, hfailed⟩
    rcases concat_eq_split_iff.1 h with ⟨-, hcall, -⟩ | ⟨failed, rfl, hcalls⟩
    · exact Or.inl hcall
    · rw [List.forall_mem_append, List.forall_mem_singleton] at hfailed
      exact Or.inr ⟨hfailed.2, earlier, failed, hcalls, hfailed.1⟩
  · rintro (rfl | ⟨rfl, earlier, failed, rfl, hfailed⟩)
    · exact ⟨calls, [], rfl, fun _ h => by cases h⟩
    · refine ⟨earlier, failed ++ [.send none], by simp, ?_⟩
      rw [List.forall_mem_append, List.forall_mem_singleton]
      exact ⟨hfailed, rfl⟩

/-- The reply in the buffer is that of the latest send that got one, if only failing sends
came after it. -/
theorem received_eq_some {calls : List (BufferCall (Option Bytes))} {resp : Bytes} :
    buffered.received calls = some resp ↔
      ∃ earlier failed, calls = earlier ++ .send (some resp) :: failed ∧
        ∀ call ∈ failed, call = .send none := by
  induction calls using List.reverseRecOn with
  | nil =>
    refine iff_of_false (fun h => by cases h) fun ⟨earlier, failed, h, _⟩ => ?_
    exact List.append_ne_nil_of_right_ne_nil earlier (List.cons_ne_nil _ failed) h.symm
  | append_singleton calls call ih =>
    rw [last_reply_concat, ← ih]
    cases call with
    | receive => simp
    | send outcome =>
      rw [received_concat_send]
      cases outcome with
      | some reply => simp [buffered, send]
      | none => simp [buffered, send, BufferedTransport.received, ReplyBuffer.receive]

/-- The buffer holds what is due, or is stale. -/
theorem received_eq_due_iff (calls : List (BufferCall (Option Bytes))) :
    buffered.received calls = buffered.due calls ↔ ¬ Stale calls := by
  constructor
  · rintro h ⟨earlier, resp, failed, rfl, hne, hfailed⟩
    have hreceived : buffered.received (earlier ++ .send (some resp) :: failed) = some resp :=
      received_eq_some.2 ⟨earlier, failed, rfl, hfailed⟩
    obtain ⟨failed, last, rfl⟩ := failed.eq_nil_or_concat.resolve_left hne
    have hlast : last = .send none := hfailed last (by simp)
    rw [h, hlast, List.concat_eq_append, ← List.cons_append, ← List.append_assoc,
      due_concat_send] at hreceived
    cases hreceived
  · intro hfresh
    cases hreceived : buffered.received calls with
    | some resp =>
      obtain ⟨earlier, failed, rfl, hfailed⟩ := received_eq_some.1 hreceived
      have hnil : failed = [] := by
        by_contra hne
        exact hfresh ⟨earlier, resp, failed, rfl, hne, hfailed⟩
      rw [hnil, due_concat_send]
      rfl
    | none =>
      -- what is due was put into the buffer by the last call
      rcases calls.eq_nil_or_concat with rfl | ⟨calls, last, rfl⟩
      · rfl
      rw [List.concat_eq_append] at hreceived ⊢
      cases last with
      | receive => rw [due_concat_receive]
      | send outcome =>
        rw [due_concat_send]
        cases outcome with
        | none => rfl
        | some resp =>
          rw [received_concat_send] at hreceived
          cases hreceived

end SerialTransport

/-- A `receive` call of the HTTP and TCP transports always returns what is due. One of the
serial transport does unless it comes when a reply was left behind by failing sends. -/
theorem receive_answers_latest_send (httpCalls : List (BufferCall (Option HttpResponse)))
    (calls : List (BufferCall (Option Bytes))) :
    HTTPTransport.buffered.AnswersLatest httpCalls ∧
      TCPTransport.buffered.AnswersLatest calls ∧
      (SerialTransport.buffered.AnswersLatest calls ↔
        ∀ before after, calls = before ++ .receive :: after → ¬ SerialTransport.Stale before) := by
  refine ⟨fun before _ _ => ?_, fun before _ _ => ?_, ?_⟩
  · exact received_eq_due (fun resp => lastReceivedBytes_sendOrClear (HTTPTransport.reply resp)) before
  · exact received_eq_due lastReceivedBytes_sendOrClear before
  · refine forall_congr' fun before => forall_congr' fun after => imp_congr_right fun _ => ?_
    exact SerialTransport.received_eq_due_iff before

/-- A reply that nobody fetched comes back after a send that failed. -/
theorem serial_returns_stale_reply :
    ¬ SerialTransport.buffered.AnswersLatest [.send (some [1]), .send none, .receive] := by
  intro h
  have hstale := h [.send (some [1]), .send none] [] rfl
  exact absurd hstale (by decide)

end Dhava
