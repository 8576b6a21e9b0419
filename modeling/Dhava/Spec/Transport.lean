import Dhava.Foundations.Dict
import Dhava.Spec.Framing
import Mathlib.Data.Rat.Defs

/-! The transport manager (`transport.py`). What a link answers to the probe and to a
request is part of the link; the elapsed time is an argument. -/

namespace Dhava

open Foundations

/-- What `send_receive` returns or raises. -/
inductive LinkOutcome
  | response (resp : Bytes)
  | noResponse
  | raised (exc : String)
  deriving DecidableEq

structure Transport where
  name : String
  isAvailable : Bool
  sendReceive : Bytes → LinkOutcome

structure TransportResult where
  success : Bool
  bytesSent : ℕ
  durationSeconds : ℚ
  transportUsed : String
  error : Option String
  deriving DecidableEq

structure TransportManager where
  transports : Dict String Transport
  preferenceOrder : List String
  lastActiveName : Option String := none

/-- `l.insert(index, x)`: an index out of range is cut off, a negative one counts from the end. -/
def pyInsert {α : Type} (index : ℤ) (x : α) (l : List α) : List α :=
  let index := if index < 0 then max (index + l.length) 0 else min index l.length
  l.take index.toNat ++ x :: l.drop index.toNat

namespace TransportManager

/-- An empty preference order counts as none. A transport replaces an earlier one of its name. -/
def new (transports : List Transport := []) (preferenceOrder : List String := []) :
    TransportManager where
  transports := transports.foldl (fun d t => d.insert t.name t) ∅
  preferenceOrder :=
    if preferenceOrder = [] then (transports.map Transport.name).eraseDups else preferenceOrder

def addTransport (m : TransportManager) (transport : Transport)
    (preferenceIndex : Option ℤ := none) : TransportManager :=
  let name := transport.name
  { m with
    transports := m.transports.insert name transport
    preferenceOrder :=
      if name ∈ m.preferenceOrder then m.preferenceOrder
      else match preferenceIndex with
        | some index => pyInsert index name m.preferenceOrder
        | none => m.preferenceOrder ++ [name] }

/-- The probe of one name: the transport, where it is registered and available. -/
def probe (m : TransportManager) (name : String) : Option (String × Transport) :=
  match m.transports.lookup name with
  | some transport => if transport.isAvailable then some (name, transport) else none
  | none => none

def getActiveTransport (m : TransportManager) : TransportManager × Option Transport :=
  match m.preferenceOrder.findSome? m.probe with
  | some (name, transport) => ({ m with lastActiveName := some name }, some transport)
  | none => ({ m with lastActiveName := none }, none)

def exchange (m : TransportManager) (requestBytes : Bytes) (elapsed : ℚ) :
    TransportManager × Option Bytes × TransportResult :=
  match m.getActiveTransport with
  | (m, none) =>
    (m, none,
      { success := false, bytesSent := 0, durationSeconds := 0, transportUsed := "none"
        error := some "No transport available" })
  | (m, some transport) =>
    let duration := max (1 / 1000) elapsed
    match transport.sendReceive requestBytes with
    | .response resp =>
      (m, some resp,
        { success := true, bytesSent := requestBytes.length, durationSeconds := duration
          transportUsed := transport.name, error := none })
    | .noResponse =>
      (m, none,
        { success := false, bytesSent := requestBytes.length, durationSeconds := duration
          transportUsed := transport.name
          error := some "No response received from remote peer" })
    | .raised exc =>
      (m, none,
        { success := false, bytesSent := 0, durationSeconds := duration
          transportUsed := transport.name, error := some exc })

end TransportManager
end Dhava
