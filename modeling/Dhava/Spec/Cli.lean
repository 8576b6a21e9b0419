import Dhava.Spec.LocalWrite
import Dhava.Spec.Node
import Dhava.Spec.Server

/-! The commands of `cli.py` on the databases of a site. A command is a process of its own: it
opens the database of its node with a new engine, and `sync` is one `sync_now` over HTTP. -/

namespace Dhava

open Foundations

/-- What the server's environment decides about a request it handles. -/
structure Handling where
  faults : ℕ → Option Fault
  now : Readings

/-- How one `post` of a request ends. Where it raises, times out, or has another status than
200 or another body than a response, the server may have handled the request all the same. -/
inductive Post
  | unanswered (handling : Option Handling)
  | garbled (handling : Option Handling) (exc : String)
  | answered (handling : Handling)

structure HTTPTransport where
  retryCount : ℕ := 3
  bandwidthBps : ℤ := 1000000

variable {V : Type}

namespace HTTPTransport

def handled (srv : Server V) (req : SyncPushRequest V) : Option Handling → Server V
  | none => srv
  | some h => (srv.handleSyncRequest h.faults h.now req).1

def post (srv : Server V) (req : SyncPushRequest V) : List Post → Server V × Exchange V
  | [] => (srv, .failed "No response received from remote peer")
  | .unanswered handling :: rest => post (handled srv req handling) req rest
  | .garbled handling exc :: _ => (handled srv req handling, .undecodable exc)
  | .answered h :: _ =>
    let (srv, resp) := srv.handleSyncRequest h.faults h.now req
    (srv, .response resp)

/-- `posts` are the ends of the posts in order. -/
def sendReceive (t : HTTPTransport) (srv : Server V) (req : SyncPushRequest V) (posts : List Post) :
    Server V × Exchange V :=
  post srv req (posts.take (max 1 t.retryCount))

end HTTPTransport

/-- `get_status` less its times. -/
structure EngineStatus where
  state : EngineState
  activeTransport : Option String
  pendingOps : ℕ
  pendingByPriority : Priority → ℕ
  lastError : Option String
  nodeId : String

/-- `GROUP BY priority`, written over a zero for each priority. -/
def OutboxQueue.pendingBreakdown (q : OutboxQueue V) : Priority → ℕ :=
  let pending := (q.rows.filter fun op => op.syncState = .pending).map Operation.priority
  (pending.dedup.map fun p => (p, pending.count p)).foldl
    (fun counts row => Function.update counts row.1 row.2) fun _ => 0

def Engine.getStatus (e : Engine V) (active : Option String) : EngineStatus where
  state := e.state
  activeTransport := active
  pendingOps := e.outbox.pendingCount
  pendingByPriority := e.outbox.pendingBreakdown
  lastError := e.lastError
  nodeId := e.nodeId

/-- The arguments of `dhava write`, with what parsing makes of the JSON and of the priority. -/
structure WriteArgs (V : Type) where
  collection : String
  recordId : String
  data : Option (Dict String V)
  priority : Option Priority
  opId : String
  now : ℚ
  enqueuedAt : ℚ
  ends : WriteStep → TxEnd

def WriteArgs.call (w : WriteArgs V) (data : Dict String V) (priority : Priority) : LocalCall V where
  opType := .create
  collection := w.collection
  recordId := w.recordId
  data
  priority
  opId := w.opId
  now := w.now
  enqueuedAt := w.enqueuedAt

/-- What `dhava sync` meets. The link is probed for the estimate and again for the exchange;
without `--server` there is none. -/
structure SyncArgs where
  available : Bool
  stillAvailable : Bool
  sessionId : String
  now : ℚ
  faults : ℕ → Option Fault
  posts : List Post

inductive Command (V : Type)
  | init
  | status
  | write (w : WriteArgs V)
  | query (collection : String) (limit : ℕ)
  | sync (args : SyncArgs)

inductive Output (V : Type)
  | exit
  | raised
  | initialized
  | status (st : EngineStatus)
  | stored (result : CallEnd V)
  | records (records : List (Record V))
  | session (session : SyncSession)

/-- The server, and the databases of the nodes by their ids: the tables as the latest engine
left them, `none` before there is a file. -/
structure Site (V : Type) where
  server : Server V
  homes : String → Option (Engine V)

namespace Site

def init (server : Server V) : Site V where
  server
  homes _ := none

/-- `DDILSyncEngine.create` on the database of the node. -/
def engine (s : Site V) (n : String) : Engine V :=
  match s.homes n with
  | none => Engine.create n
  | some e => e.restart

def save (s : Site V) (n : String) (e : Engine V) : Site V :=
  { s with homes := Function.update s.homes n (some e) }

/-- The schema is created where there is none, and no engine is. -/
def initDatabase (s : Site V) (n : String) : Site V :=
  s.save n ((s.homes n).getD (Engine.create n))

def status (s : Site V) (n : String) : Site V × Output V :=
  match s.homes n with
  | none => (s, .exit)
  | some _ =>
    let e := s.engine n
    (s.save n e, .status (e.getStatus none))

/-- The JSON is parsed before the engine is created, the priority after it. -/
def write (s : Site V) (n : String) (w : WriteArgs V) : Site V × Output V :=
  match w.data, w.priority with
  | none, _ => (s, .exit)
  | some _, none => (s.save n (s.engine n), .raised)
  | some data, some priority =>
    let (e, result) := (s.engine n).callUnder (w.call data priority) w.ends
    (s.save n e, .stored result)

def query (s : Site V) (n collection : String) (limit : ℕ) : Site V × Output V :=
  let e := s.engine n
  (s.save n e, .records (e.localStore.query collection (fun _ => true) limit))

/-- The exchange of a `sync` that found a link. -/
def exchange (s : Site V) (n : String) (args : SyncArgs) : Server V × Exchange V :=
  let http : HTTPTransport := {}
  let req := ((s.engine n).beginSync args.sessionId http.bandwidthBps).2.2
  if args.stillAvailable then http.sendReceive s.server req args.posts
  else (s.server, .failed "No transport available")

def sync (s : Site V) (n : String) (args : SyncArgs) : Site V × Output V :=
  let http : HTTPTransport := {}
  if args.available then
    let (server, x) := s.exchange n args
    let (e, session) := (s.engine n).syncNow args.sessionId (some http.bandwidthBps) args.now
      args.faults fun _ => x
    ({ s with server }.save n e, .session session)
  else
    let (e, session) := (s.engine n).syncNow args.sessionId none args.now args.faults fun _ =>
      .failed "No transport available"
    (s.save n e, .session session)

/-- A command under `--node-id n` with the database of this node. -/
def run (s : Site V) (n : String) : Command V → Site V × Output V
  | .init => (s.initDatabase n, .initialized)
  | .status => s.status n
  | .write w => s.write n w
  | .query collection limit => s.query n collection limit
  | .sync args => s.sync n args

def step (s : Site V) (ev : String × Command V) : Site V := (s.run ev.1 ev.2).1

end Site
end Dhava
