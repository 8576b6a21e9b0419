import Dhava.Proofs.Framing
import Dhava.Spec.Tcp

/-! The receive loops of `transports/tcp.py` take exactly the bytes they ask for, or find that
there are too few, whatever the chunks. So the response is the frame the stream begins with. -/

namespace Dhava

namespace Socket

variable (chunks : ℕ → ℕ)

/-- What one chunk does: it is a nonempty piece off the front, if there is one. -/
theorem recv_cases (sock : Socket) {bufsize : ℕ} (hsize : 0 < bufsize) :
    ∃ n, 0 < n ∧ n ≤ bufsize ∧
      sock.recv chunks bufsize =
        (sock.unread.take n, { unread := sock.unread.drop n, received := sock.received + 1 }) := by
  refine ⟨min bufsize (max 1 (chunks sock.received)), ?_, min_le_left _ _, rfl⟩
  omega

end Socket

namespace TCPTransport

variable {sha256 : Bytes → Digest} {chunks : ℕ → ℕ}

/-! ### One loop

The measure is the number of bytes that are missing, and each chunk is taken off them and off
the stream alike. -/

theorem recvUntil_of_short {size : ℕ} {data : Bytes} {sock : Socket}
    (hshort : sock.unread.length < size - data.length) :
    recvUntil chunks size data sock = none := by
  fun_induction recvUntil chunks size data sock with
  | case1 => rfl
  | case2 data sock hmissing chunk rest heq hne ih =>
    obtain ⟨n, hpos, hle, hrecv⟩ := sock.recv_cases chunks (Nat.sub_pos_of_lt hmissing)
    obtain ⟨rfl, rfl⟩ := Prod.mk.inj (heq.symm.trans hrecv)
    refine ih ?_
    rw [List.length_append, List.length_take, List.length_drop]
    omega
  | case3 data sock hdone => omega

theorem recvUntil_of_enough {size : ℕ} {data : Bytes} {sock : Socket} (hdata : data.length ≤ size)
    (henough : size - data.length ≤ sock.unread.length) :
    ∃ received, recvUntil chunks size data sock =
      some (data ++ sock.unread.take (size - data.length),
        { unread := sock.unread.drop (size - data.length), received }) := by
  fun_induction recvUntil chunks size data sock with
  | case1 data sock hmissing rest heq =>
    -- the stream is not at its end
    have hnil := (sock.recv_eq_nil_iff chunks (Nat.sub_pos_of_lt hmissing)).1 (congrArg Prod.fst heq)
    rw [hnil, List.length_nil] at henough
    omega
  | case2 data sock hmissing chunk rest heq hne ih =>
    obtain ⟨n, hpos, hle, hrecv⟩ := sock.recv_cases chunks (Nat.sub_pos_of_lt hmissing)
    obtain ⟨rfl, rfl⟩ := Prod.mk.inj (heq.symm.trans hrecv)
    have hlen : (data ++ sock.unread.take n).length = data.length + n := by
      rw [List.length_append, List.length_take]
      omega
    have hsplit : size - data.length = n + (size - (data.length + n)) := by omega
    rw [hlen] at ih
    obtain ⟨received, hrest⟩ := ih (by omega) (by rw [List.length_drop]; omega)
    refine ⟨received, ?_⟩
    rw [hrest, hsplit, List.take_add, List.drop_drop, List.append_assoc]
  | case3 data sock hdone =>
    have hsize : size - data.length = 0 := by omega
    exact ⟨sock.received, by rw [hsize, List.take_zero, List.append_nil, List.drop_zero]⟩

theorem recvUntil_nil_of_enough (chunks : ℕ → ℕ) {size : ℕ} (sock : Socket) (henough : size ≤ sock.unread.length) :
    ∃ received, recvUntil chunks size [] sock =
      some (sock.unread.take size, { unread := sock.unread.drop size, received }) := by
  have h : size - ([] : Bytes).length ≤ sock.unread.length := henough
  exact recvUntil_of_enough (Nat.zero_le size) h

theorem recvUntil_nil_of_short {size : ℕ} {sock : Socket} (hshort : sock.unread.length < size) :
    recvUntil chunks size [] sock = none := by
  have h : sock.unread.length < size - ([] : Bytes).length := hshort
  exact recvUntil_of_short h

/-! ### The response -/

/-- The header says how much of the stream is looked at. -/
theorem unframePayload_announced {data payload : Bytes} (hheader : frameHeaderSize ≤ data.length) :
    (∃ rest, unframePayload sha256 (data.take frameHeaderSize ++ (data.drop frameHeaderSize).take
        (FrameHeader.unpack (data.take frameHeaderSize)).length) = .ok (payload, rest)) ↔
      ∃ rest, unframePayload sha256 data = .ok (payload, rest) := by
  have hlen := List.length_take_of_le hheader
  set announced := (FrameHeader.unpack (data.take frameHeaderSize)).length with hannounced
  simp only [unframePayload_eq_ok, List.take_left' hlen, List.drop_left' hlen]
  constructor
  · rintro ⟨rest, -, hunpack, hbody⟩
    refine ⟨rest ++ (data.drop frameHeaderSize).drop announced, hheader, hunpack, ?_⟩
    rw [← List.append_assoc, ← hbody, List.take_append_drop]
  · rintro ⟨rest, -, hunpack, hbody⟩
    have hpayload : announced = payload.length := by rw [hannounced, hunpack, headerOf]
    refine ⟨[], ?_, hunpack, ?_⟩
    · rw [List.length_append, hlen]
      exact Nat.le_add_right _ _
    · rw [hpayload, hbody, List.take_left, List.append_nil]

/-- The loops and the last check read the stream as one `unframe_payload` of all of it would. -/
theorem receiveResponse_eq_some {sock : Socket} {payload : Bytes} :
    receiveResponse sha256 chunks sock = some payload ↔
      ∃ rest, unframePayload sha256 sock.unread = .ok (payload, rest) := by
  unfold receiveResponse
  rcases lt_or_ge sock.unread.length frameHeaderSize with hshort | hheader
  · -- the peer closed within the header
    rw [recvUntil_nil_of_short hshort]
    refine iff_of_false (fun h => by cases h) fun ⟨rest, h⟩ => ?_
    exact absurd ((unframePayload_eq_ok sha256).1 h).1 hshort.not_ge
  obtain ⟨received, hfirst⟩ := recvUntil_nil_of_enough chunks sock hheader
  rw [hfirst]
  simp only
  set header := sock.unread.take frameHeaderSize with hheaderData
  set body := sock.unread.drop frameHeaderSize with hbodyData
  rcases lt_or_ge body.length (FrameHeader.unpack header).length with hshort | henough
  · -- the peer closed within the payload
    rw [recvUntil_nil_of_short hshort]
    refine iff_of_false (fun h => by cases h) fun ⟨rest, h⟩ => ?_
    obtain ⟨-, hunpack, hbody⟩ := (unframePayload_eq_ok sha256).1 h
    rw [hunpack, hbodyData, hbody, List.length_append] at hshort
    exact absurd (Nat.le_add_right payload.length rest.length) hshort.not_ge
  · obtain ⟨received', hsecond⟩ := recvUntil_nil_of_enough chunks ⟨body, received⟩ henough
    rw [hsecond, ← unframePayload_announced hheader, ← hheaderData, ← hbodyData]
    simp only
    cases hframe : unframePayload sha256 (header ++ body.take (FrameHeader.unpack header).length) with
    | error exc => exact iff_of_false (fun h => by cases h) fun ⟨_, h⟩ => by cases h
    | ok extracted =>
      obtain ⟨extractedPayload, remaining⟩ := extracted
      simp

/-- For every stream the peer sends before closing and every way its bytes come in, the response
is the payload of the frame that the stream begins with, and there is none without a frame. -/
theorem tcp_response_exact (sha256 : Bytes → Digest) (chunks : ℕ → ℕ) (stream : Bytes) :
    (∀ payload, receiveResponse sha256 chunks { unread := stream } = some payload ↔
        ∃ framed, framePayload sha256 payload = .ok framed ∧ framed <+: stream) ∧
      (receiveResponse sha256 chunks { unread := stream } = none ↔
        ¬ ∃ payload framed, framePayload sha256 payload = .ok framed ∧ framed <+: stream) ∧
      ∀ chunks', receiveResponse sha256 chunks' { unread := stream } =
        receiveResponse sha256 chunks { unread := stream } := by
  have hsome : ∀ chunks' payload, receiveResponse sha256 chunks' { unread := stream } = some payload ↔
      ∃ framed, framePayload sha256 payload = .ok framed ∧ framed <+: stream := by
    intro chunks' payload
    rw [receiveResponse_eq_some]
    simp only [(selfDelimiting sha256).exact]
    constructor
    · rintro ⟨rest, framed, hframed, hstream⟩
      exact ⟨framed, hframed, rest, hstream.symm⟩
    · rintro ⟨framed, hframed, rest, hstream⟩
      exact ⟨rest, framed, hframed, hstream.symm⟩
  refine ⟨hsome chunks, ?_, fun chunks' => ?_⟩
  · rw [Option.eq_none_iff_forall_ne_some, not_exists]
    exact forall_congr' fun payload => not_congr (hsome chunks payload)
  · exact Option.ext fun payload => (hsome chunks' payload).trans (hsome chunks payload).symm

end TCPTransport
end Dhava
