import Dhava.Spec.Sneakernet
import Mathlib.Logic.Function.Basic

/-! One `FileTransport` over the directories of a file system (`transports/file.py`). Each call
runs without others in between. Directories are told apart by identifiers, and what the file
system decides comes with the call. -/

namespace Dhava

open Foundations

/-- What a name in a directory stands for. -/
structure DirEntry where
  /-- `none` where `read_bytes` raises, as it does for a directory -/
  bytes : Option Bytes
  /-- `none` where `stat` raises, as it does for a link to nowhere -/
  mtime : Option ℚ
  deriving DecidableEq

/-- The directories, and the `.processed` directory of each. -/
structure FileSystem (δ : Type) where
  dirs : δ → Dict String DirEntry
  processed : δ → δ

structure FileTransport (δ : Type) where
  exportDir : δ
  importDir : δ

def FileTransport.new {δ : Type} (exportDir : δ) (importDir : Option δ := none) : FileTransport δ where
  exportDir
  importDir := importDir.getD exportDir

/-- Where a `send` call raises after it has framed its data, and what it leaves as its
temporary file. -/
inductive SendFault
  | writeBytes (left : Option DirEntry)
  | replace

/-- What a `send_receive` call meets: the clock and the identifier for the name, the time of the
file it writes, the two listings, and the bundles it cannot move. -/
structure FileCall where
  timestamp : ℤ
  bundleId : String
  mtime : ℚ
  fault : Option SendFault := none
  pulls : List String
  pushes : List String
  stuck : String → Bool := fun _ => false

namespace FileTransport

variable {δ : Type} [DecidableEq δ] (sha256 : Bytes → Digest) (t : FileTransport δ)

def send (fs : FileSystem δ) (call : FileCall) (data : Bytes) : Bool × FileSystem δ :=
  let filename := bundleName call.timestamp call.bundleId
  let dir := fs.dirs t.exportDir
  let leave (dir : Dict String DirEntry) : FileSystem δ :=
    { fs with dirs := Function.update fs.dirs t.exportDir dir }
  match framePayload sha256 data with
  | .error _ => (false, fs)
  | .ok framed =>
    let entry : DirEntry := { bytes := some framed, mtime := some call.mtime }
    match call.fault with
    | some (.writeBytes none) => (false, fs)
    | some (.writeBytes (some left)) => (false, leave (dir.insert (tempName filename) left))
    | some .replace => (false, leave (dir.insert (tempName filename) entry))
    | none => (true, leave ((dir.erase (tempName filename)).insert filename entry))

/-- The body of the loop up to the move: the payload, or `none` where something raises. -/
def takes (dir : Dict String DirEntry) (stuck : String → Bool) (bundle : String) : Option Bytes :=
  match (dir.lookup bundle).bind DirEntry.bytes with
  | none => none
  | some raw =>
    match unframePayload sha256 raw with
    | .error _ => none
    | .ok (payload, _) => if stuck bundle then none else some payload

def mtimeOf (dir : Dict String DirEntry) (bundle : String) : Option ℚ :=
  (dir.lookup bundle).bind DirEntry.mtime

/-- The bundles in the order of the loop, or `none` where `sorted` raises. -/
def bundles (dir : Dict String DirEntry) (call : FileCall) : Option (List String) :=
  let listing := call.pulls ++ call.pushes
  if listing.all fun bundle => (mtimeOf dir bundle).isSome then
    some (listing.insertionSort fun a b => (mtimeOf dir a).getD 0 ≤ (mtimeOf dir b).getD 0)
  else none

/-- The bundle a `receive` call takes, with its payload. -/
def taken (dir : Dict String DirEntry) (call : FileCall) : Option (String × Bytes) :=
  match bundles dir call with
  | none => none
  | some bundles =>
    bundles.findSome? fun bundle => (takes sha256 dir call.stuck bundle).map fun payload => (bundle, payload)

/-- `bundle.replace(processed_dir / bundle.name)`. -/
def move (fs : FileSystem δ) (bundle : String) : FileSystem δ :=
  match (fs.dirs t.importDir).lookup bundle with
  | none => fs
  | some entry =>
    let processedDir := fs.processed t.importDir
    let dirs := Function.update fs.dirs t.importDir ((fs.dirs t.importDir).erase bundle)
    { fs with dirs := Function.update dirs processedDir ((dirs processedDir).insert bundle entry) }

def receive (fs : FileSystem δ) (call : FileCall) : Option Bytes × FileSystem δ :=
  match taken sha256 (fs.dirs t.importDir) call with
  | none => (none, fs)
  | some (bundle, payload) => (some payload, t.move fs bundle)

def sendReceive (fs : FileSystem δ) (call : FileCall) (requestBytes : Bytes) :
    Option Bytes × FileSystem δ :=
  match t.send sha256 fs call requestBytes with
  | (true, fs) => t.receive sha256 fs call
  | (false, fs) => (none, fs)

/-- The listings of a `receive` call have every name that matches, in any order. -/
structure Lists (dir : Dict String DirEntry) (call : FileCall) : Prop where
  pullsNodup : call.pulls.Nodup
  pulls : call.pulls.toFinset = dir.keys.filter fun n => isPull n = true
  pushesNodup : call.pushes.Nodup
  pushes : call.pushes.toFinset = dir.keys.filter fun n => isPush n = true

end FileTransport
end Dhava
