import Dhava.Spec.Framing
import Mathlib.Data.List.Basic

/-! The receive part of `transports/tcp.py`: a socket hands out the bytes the peer has sent
before closing, in chunks that it chooses. -/

namespace Dhava

/-- What has not been received yet, and how many chunks were. -/
structure Socket where
  unread : Bytes
  received : ℕ := 0
  deriving DecidableEq

namespace Socket

/-- `sock.recv(bufsize)`, whose `i`-th chunk has at most `chunks i` bytes, one where that is 0.
It is empty only at the end of the stream. -/
def recv (chunks : ℕ → ℕ) (sock : Socket) (bufsize : ℕ) : Bytes × Socket :=
  let n := min bufsize (max 1 (chunks sock.received))
  (sock.unread.take n, { unread := sock.unread.drop n, received := sock.received + 1 })

theorem recv_eq_nil_iff (chunks : ℕ → ℕ) (sock : Socket) {bufsize : ℕ} (h : 0 < bufsize) :
    (sock.recv chunks bufsize).1 = [] ↔ sock.unread = [] := by
  have hpos : min bufsize (max 1 (chunks sock.received)) ≠ 0 := by omega
  exact List.take_eq_nil_iff.trans (or_iff_right hpos)

/-- Every chunk that is not empty, not longer than requested and next in the stream can come. -/
theorem recv_eq (sock : Socket) {bufsize : ℕ} {chunk rest : Bytes}
    (hstream : sock.unread = chunk ++ rest) (hne : chunk ≠ []) (hlen : chunk.length ≤ bufsize) :
    sock.recv (fun _ => chunk.length) bufsize =
      (chunk, { unread := rest, received := sock.received + 1 }) := by
  have hpos := List.length_pos_of_ne_nil hne
  have hmin : min bufsize (max 1 chunk.length) = chunk.length := by omega
  unfold recv
  simp only [hmin, hstream, List.take_left, List.drop_left]

end Socket

namespace TCPTransport

variable (sha256 : Bytes → Digest) (chunks : ℕ → ℕ)

/-- `while len(data) < size`, for the header as for the payload, `none` where the peer closes
too early. -/
def recvUntil (size : ℕ) (data : Bytes) (sock : Socket) : Option (Bytes × Socket) :=
  if data.length < size then
    let (chunk, rest) := sock.recv chunks (size - data.length)
    if chunk = [] then none
    else recvUntil size (data ++ chunk) rest
  else some (data, sock)
termination_by size - data.length
decreasing_by
  rename_i hmissing hclosed
  have hpos := List.length_pos_of_ne_nil hclosed
  rw [List.length_append]
  omega

/-- `send_receive` from the first `recv` on. The header is unpacked before it is checked. -/
def receiveResponse (sock : Socket) : Option Bytes :=
  match recvUntil chunks frameHeaderSize [] sock with
  | none => none
  | some (headerData, sock) =>
    let length := (FrameHeader.unpack headerData).length
    match recvUntil chunks length [] sock with
    | none => none
    | some (payloadData, _) =>
      match unframePayload sha256 (headerData ++ payloadData) with
      | .error _ => none
      | .ok (extractedPayload, _) => some extractedPayload

end TCPTransport
end Dhava
