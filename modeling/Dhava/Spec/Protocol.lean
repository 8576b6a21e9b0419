import Dhava.Spec.Models

/-! Messages (`protocol.py`). Bytes are modelled by what decoding them gives: an encrypted
payload is empty, does not decode (decryption, decompression or MessagePack raise), or
decodes to a list of operation dictionaries. -/

namespace Dhava

open Foundations

variable {V : Type}

inductive Sealed (V : Type)
  | empty
  | undecodable (exc : String)
  | packed (dicts : List (OpDict V))

/-- `hashMatches`: `payload_hash` is the digest of the decrypted bytes. -/
structure SyncPushRequest (V : Type) where
  nodeId : String
  sessionId : String
  operationCount : ℕ
  senderVectorClock : Dict String ℤ
  encryptedPayload : Sealed V
  hashMatches : Bool

structure SyncPullResponse (V : Type) where
  nodeId : String
  sessionId : String
  status : String
  operationCount : ℕ := 0
  ackedOpIds : List String
  rejectedOpIds : Dict String String := ∅
  encryptedPayload : Sealed V := .empty
  error : Option String := none

/-- `error or "Remote server returned error"`: an empty text is as good as none. -/
def SyncPullResponse.errMsg (resp : SyncPullResponse V) : String :=
  (resp.error.filter fun error => error ≠ "").getD "Remote server returned error"

/-- An exception inside one iteration of a sync loop on a decoded operation: in reading and
resolving, in `apply_operation`, or in `audit.log`. -/
inductive Fault
  | read (exc : String)
  | store (exc : String)
  | audit (exc : String)

def noFaults : ℕ → Option Fault := fun _ => none

/-- What an exchange hands back to `sync_now`: an exception before anything was sent, a
failed exchange (no transport, no reply, or an exception on the link), bytes that do not
deserialize, or a response. -/
inductive Exchange (V : Type)
  | notSent (exc : String)
  | failed (error : String)
  | undecodable (exc : String)
  | response (resp : SyncPullResponse V)

end Dhava
