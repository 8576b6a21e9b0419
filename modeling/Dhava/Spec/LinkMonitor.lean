import Dhava.Foundations.Run
import Dhava.Spec.Transport

/-! The transport manager with its status callbacks (`transport.py`), over runs in which links
come and go between the calls. -/

namespace Dhava

open Foundations

/-- `error` is never set by the manager. -/
structure TransportStatus where
  name : String
  available : Bool
  estimatedBandwidth : ℕ
  latencyMs : ℚ
  lastChecked : ℚ
  deriving DecidableEq

/-- The calls of a link that an exchange does not make, by the link's name. -/
structure LinkDriver where
  estimateBandwidth : String → ℕ
  estimateLatency : String → ℚ
  send : String → Bytes → Except String Bool
  receive : String → Except String (Option Bytes)

/-- A manager, and what each registered callback was called with, the callbacks in the order
they were registered. What a callback raises is swallowed. -/
structure LinkMonitor where
  manager : TransportManager
  heard : List (List TransportStatus)

namespace LinkMonitor

variable (driver : LinkDriver)

def registerStatusCallback (w : LinkMonitor) : LinkMonitor := { w with heard := w.heard ++ [[]] }

def notifyStatus (w : LinkMonitor) (status : TransportStatus) : LinkMonitor :=
  { w with heard := w.heard.map (· ++ [status]) }

/-- `now` is the time of the check. -/
def statusOf (name : String) (available : Bool) (now : ℚ) : TransportStatus where
  name := name
  available := available
  estimatedBandwidth := if available then driver.estimateBandwidth name else 0
  latencyMs := if available then driver.estimateLatency name else 0
  lastChecked := now

/-- `get_active_transport`. An outage is recorded, and nobody is told. -/
def getActiveTransport (w : LinkMonitor) (now : ℚ) : LinkMonitor × Option Transport :=
  match w.manager.preferenceOrder.findSome? w.manager.probe with
  | some (name, transport) =>
    if w.manager.lastActiveName ≠ some name then
      let w := { w with manager.lastActiveName := some name }
      (w.notifyStatus (statusOf driver name true now), some transport)
    else (w, some transport)
  | none => ({ w with manager.lastActiveName := none }, none)

def listAvailable (w : LinkMonitor) (now : ℚ) : List TransportStatus :=
  w.manager.preferenceOrder.filterMap fun name =>
    (w.manager.transports.lookup name).map fun t => statusOf driver name t.isAvailable now

def send (w : LinkMonitor) (data : Bytes) (now elapsed : ℚ) : LinkMonitor × TransportResult :=
  match w.getActiveTransport driver now with
  | (w, none) =>
    (w, { success := false, bytesSent := 0, durationSeconds := 0, transportUsed := "none"
          error := some "No transport currently available (network denied)" })
  | (w, some transport) =>
    let duration := max (1 / 1000) elapsed
    match driver.send transport.name data with
    | .ok ok =>
      (w, { success := ok, bytesSent := if ok then data.length else 0, durationSeconds := duration
            transportUsed := transport.name
            error := if ok then none else some "Transport send failed" })
    | .error exc =>
      (w, { success := false, bytesSent := 0, durationSeconds := duration
            transportUsed := transport.name, error := some exc })

def receive (w : LinkMonitor) (now : ℚ) : LinkMonitor × Option Bytes :=
  match w.getActiveTransport driver now with
  | (w, none) => (w, none)
  | (w, some transport) =>
    match driver.receive transport.name with
    | .ok data => (w, data)
    | .error _ => (w, none)

/-- What `exchange` makes of the answer of the active link. -/
def settle (requestBytes : Bytes) (elapsed : ℚ) (transport : Transport) :
    Option Bytes × TransportResult :=
  let duration := max (1 / 1000) elapsed
  match transport.sendReceive requestBytes with
  | .response resp =>
    (some resp, { success := true, bytesSent := requestBytes.length, durationSeconds := duration
                  transportUsed := transport.name, error := none })
  | .noResponse =>
    (none, { success := false, bytesSent := requestBytes.length, durationSeconds := duration
             transportUsed := transport.name
             error := some "No response received from remote peer" })
  | .raised exc =>
    (none, { success := false, bytesSent := 0, durationSeconds := duration
             transportUsed := transport.name, error := some exc })

def exchange (w : LinkMonitor) (requestBytes : Bytes) (now elapsed : ℚ) :
    LinkMonitor × Option Bytes × TransportResult :=
  match w.getActiveTransport driver now with
  | (w, none) =>
    (w, none, { success := false, bytesSent := 0, durationSeconds := 0, transportUsed := "none"
                error := some "No transport available" })
  | (w, some transport) => (w, settle requestBytes elapsed transport)

/-! ### Runs -/

inductive LinkEvent
  /-- The registered link of this name behaves like `t` from here on. -/
  | linkChanges (t : Transport)
  | addTransport (t : Transport) (preferenceIndex : Option ℤ)
  | registerStatusCallback
  | getActiveTransport (now : ℚ)
  | send (data : Bytes) (now elapsed : ℚ)
  | receive (now : ℚ)
  | exchange (requestBytes : Bytes) (now elapsed : ℚ)

def step (w : LinkMonitor) : LinkEvent → LinkMonitor
  | .linkChanges t =>
    if t.name ∈ w.manager.transports then
      { w with manager.transports := w.manager.transports.insert t.name t }
    else w
  | .addTransport t index => { w with manager := w.manager.addTransport t index }
  | .registerStatusCallback => w.registerStatusCallback
  | .getActiveTransport now => (w.getActiveTransport driver now).1
  | .send data now elapsed => (w.send driver data now elapsed).1
  | .receive now => (w.receive driver now).1
  | .exchange requestBytes now elapsed => (w.exchange driver requestBytes now elapsed).1

/-- The link a call finds active, for the events that look for one. -/
def found (w : LinkMonitor) : LinkEvent → Option (Option String)
  | .linkChanges _ | .addTransport _ _ | .registerStatusCallback => none
  | .getActiveTransport _ | .send _ _ _ | .receive _ | .exchange _ _ _ =>
    some ((w.manager.preferenceOrder.findSome? w.manager.probe).map Prod.fst)

end LinkMonitor
end Dhava
