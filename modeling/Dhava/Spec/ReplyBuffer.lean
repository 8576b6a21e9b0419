import Dhava.Foundations.Run
import Dhava.Spec.Framing

/-! `send` and `receive` of the HTTP, TCP and serial transports: `send` makes a whole exchange
and keeps the reply, `receive` hands it out. -/

namespace Dhava

open Foundations

/-- The field `_last_received_bytes`. -/
structure ReplyBuffer where
  lastReceivedBytes : Option Bytes := none
  deriving DecidableEq

namespace ReplyBuffer

/-- `receive`, the same in the three transports. -/
def receive (b : ReplyBuffer) : Option Bytes × ReplyBuffer :=
  (b.lastReceivedBytes, { b with lastReceivedBytes := none })

/-- `send` of a transport that empties the buffer when it gets no reply. -/
def sendOrClear (resp : Option Bytes) (b : ReplyBuffer) : Bool × ReplyBuffer :=
  match resp with
  | some resp => (true, { b with lastReceivedBytes := some resp })
  | none => (false, { b with lastReceivedBytes := none })

theorem sendOrClear_fst (resp : Option Bytes) (b : ReplyBuffer) :
    (b.sendOrClear resp).1 = resp.isSome := by
  cases resp <;> rfl

end ReplyBuffer

structure HttpResponse where
  statusCode : ℕ
  content : Bytes
  deriving DecidableEq

/-- A transport with the buffer: the reply that an exchange gets, and what `send` does then. -/
structure BufferedTransport (Outcome : Type) where
  reply : Outcome → Option Bytes
  send : Outcome → ReplyBuffer → Bool × ReplyBuffer
  /-- `send` returns True exactly for a reply. -/
  send_fst : ∀ outcome b, (send outcome b).1 = (reply outcome).isSome

/-- The exchange of HTTP is one `post`, and `none` where that raises. -/
def HTTPTransport.reply (resp : Option HttpResponse) : Option Bytes :=
  match resp with
  | some resp => if resp.statusCode = 200 then some resp.content else none
  | none => none

def HTTPTransport.send (resp : Option HttpResponse) : ReplyBuffer → Bool × ReplyBuffer :=
  ReplyBuffer.sendOrClear (HTTPTransport.reply resp)

/-- The exchange of TCP is its `send_receive`. -/
def TCPTransport.send (resp : Option Bytes) : ReplyBuffer → Bool × ReplyBuffer :=
  ReplyBuffer.sendOrClear resp

def SerialTransport.send (resp : Option Bytes) (b : ReplyBuffer) : Bool × ReplyBuffer :=
  match resp with
  | some resp => (true, { b with lastReceivedBytes := some resp })
  -- without a reply the field is left as it is
  | none => (false, b)

def HTTPTransport.buffered : BufferedTransport (Option HttpResponse) where
  reply := HTTPTransport.reply
  send := HTTPTransport.send
  send_fst resp := ReplyBuffer.sendOrClear_fst (HTTPTransport.reply resp)

def TCPTransport.buffered : BufferedTransport (Option Bytes) where
  reply := id
  send := TCPTransport.send
  send_fst := ReplyBuffer.sendOrClear_fst

def SerialTransport.buffered : BufferedTransport (Option Bytes) where
  reply := id
  send := SerialTransport.send
  send_fst resp b := by cases resp <;> rfl

inductive BufferCall (Outcome : Type)
  | send (outcome : Outcome)
  | receive
  deriving DecidableEq

namespace BufferedTransport

variable {Outcome : Type} (t : BufferedTransport Outcome)

def step (b : ReplyBuffer) : BufferCall Outcome → ReplyBuffer
  | .send outcome => (t.send outcome b).2
  | .receive => b.receive.2

/-- What a `receive` call returns after `calls`, from a new transport on. -/
def received (calls : List (BufferCall Outcome)) : Option Bytes := (replay t.step {} calls).receive.1

end BufferedTransport

/-- The most recent `send` call, and whether a `receive` call came after it. -/
def latestSend {Outcome : Type} (calls : List (BufferCall Outcome)) : Option (Outcome × Bool) :=
  calls.foldl (fun latest call =>
    match call with
    | .send outcome => some (outcome, false)
    | .receive => latest.map fun (outcome, _) => (outcome, true)) none

namespace BufferedTransport

variable {Outcome : Type} (t : BufferedTransport Outcome)

/-- The reply of the most recent `send` call, where it has not been returned yet. -/
def due (calls : List (BufferCall Outcome)) : Option Bytes :=
  match latestSend calls with
  | some (outcome, false) => t.reply outcome
  | _ => none

/-- Every `receive` call among `calls` returns what is due. -/
def AnswersLatest (calls : List (BufferCall Outcome)) : Prop :=
  ∀ before after, calls = before ++ .receive :: after → t.received before = t.due before

end BufferedTransport
end Dhava
