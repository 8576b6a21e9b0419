import Dhava.Foundations.Dict
import Dhava.Foundations.Run
import Dhava.Spec.Framing
import Mathlib.Algebra.Order.Ring.Rat
import Mathlib.Data.List.Sort
import Mathlib.Data.String.Basic

/-! The sneakernet (`transports/file.py`), one file operation at a time: a directory that any
number of `send` calls export to and one receiver imports from. Names, modification times
and the order of a directory listing come from outside. -/

namespace Dhava

open Foundations

structure BundleFile where
  bytes : Bytes
  mtime : ℚ

/-- `Path.glob` for a pattern with one star. -/
def matchesGlob (before after name : String) : Bool :=
  before.toList.isPrefixOf name.toList &&
    after.toList.isSuffixOf (name.toList.drop before.toList.length)

def isPull (name : String) : Bool := matchesGlob "ddil_pull_" ".bundle" name

def isPush (name : String) : Bool := matchesGlob "ddil_push_" ".bundle" name

def bundleName (timestamp : ℤ) (bundleId : String) : String :=
  s!"ddil_push_{timestamp}_{bundleId}.bundle"

def tempName (filename : String) : String := s!"{filename}.tmp"

/-- A `send` call that has framed its data and not returned. -/
structure Sending where
  data : Bytes
  framed : Bytes

/-- Where the `receive` call stands, `idle` between two calls. -/
inductive Receiving
  | idle
  | globbed (pulls : List String)
  | listed (bundles : List String)
  | scanning (bundles : List String)
  | unframed (bundle : String) (payload : Bytes)

inductive ReceiveStep
  | globPull | globPush | sort | read | replace | exhausted
  deriving DecidableEq

/-- The step a call takes next, its first one from `idle`. -/
def Receiving.next : Receiving → ReceiveStep
  | .idle => .globPull
  | .globbed _ => .globPush
  | .listed _ => .sort
  | .scanning (_ :: _) => .read
  | .unframed _ _ => .replace
  | .scanning [] => .exhausted

/-- `sending` has the open calls by the file they write. `sent` and `delivered` record the
calls that returned: the file with the data, and the file with the payload. -/
structure Sneakernet where
  dir : Dict String BundleFile := ∅
  processed : Dict String BundleFile := ∅
  sending : Dict String Sending := ∅
  receiving : Receiving := .idle
  sent : List (String × Bytes) := []
  delivered : List (String × Bytes) := []

inductive FileEvent
  | send (timestamp : ℤ) (bundleId : String) (data : Bytes)
  /-- Part of `write_bytes`: the temporary file has the first `n` bytes. -/
  | write (filename : String) (n : ℕ) (mtime : ℚ)
  | rename (filename : String)
  /-- A file comes into the directory that is no frame. -/
  | corrupt (name : String) (file : BundleFile)
  | globPull (names : List String)
  | globPush (names : List String)
  | sort
  /-- Read and unframe the next bundle, and skip it where that raises. -/
  | read
  | replace
  | exhausted

namespace FileEvent

/-- The steps of a `receive` call after its first. -/
def continues : FileEvent → Bool
  | .globPush _ | .sort | .read | .replace | .exhausted => true
  | _ => false

end FileEvent

namespace Sneakernet

variable (sha256 : Bytes → Digest)

/-- `p.stat().st_mtime`. -/
def mtime (d : Sneakernet) (name : String) : ℚ := ((d.dir.lookup name).map BundleFile.mtime).getD 0

/-- An event that does not fit where its call stands does nothing. -/
def step (d : Sneakernet) : FileEvent → Sneakernet
  | .send timestamp bundleId data =>
    match framePayload sha256 data with
    -- the call returns False
    | .error _ => d
    | .ok framed =>
      { d with sending := d.sending.insert (bundleName timestamp bundleId) { data, framed } }
  | .write filename n mtime =>
    match d.sending.lookup filename with
    | none => d
    | some s => { d with dir := d.dir.insert (tempName filename) { bytes := s.framed.take n, mtime } }
  | .rename filename =>
    match d.sending.lookup filename, d.dir.lookup (tempName filename) with
    | some s, some file =>
      { d with
        dir := (d.dir.erase (tempName filename)).insert filename file
        sending := d.sending.erase filename
        sent := d.sent ++ [(filename, s.data)] }
    | _, _ => d
  | .corrupt name file => { d with dir := d.dir.insert name file }
  | .globPull names =>
    match d.receiving with
    | .idle => { d with receiving := .globbed names }
    | _ => d
  | .globPush names =>
    match d.receiving with
    | .globbed pulls => { d with receiving := .listed (pulls ++ names) }
    | _ => d
  | .sort =>
    match d.receiving with
    | .listed bundles =>
      { d with receiving := .scanning (bundles.insertionSort fun a b => d.mtime a ≤ d.mtime b) }
    | _ => d
  | .read =>
    match d.receiving with
    | .scanning (bundle :: rest) =>
      match (d.dir.lookup bundle).map fun file => unframePayload sha256 file.bytes with
      | some (.ok (payload, _)) => { d with receiving := .unframed bundle payload }
      | _ => { d with receiving := .scanning rest }
    | _ => d
  | .replace =>
    match d.receiving with
    | .unframed bundle payload =>
      match d.dir.lookup bundle with
      | some file =>
        { d with
          dir := d.dir.erase bundle
          processed := d.processed.insert bundle file
          receiving := .idle
          delivered := d.delivered ++ [(bundle, payload)] }
      | none => d
    | _ => d
  | .exhausted =>
    match d.receiving with
    | .scanning [] => { d with receiving := .idle }
    | _ => d

/-! ### What can happen -/

/-- A name no bundle has or had. -/
def Fresh (d : Sneakernet) (name : String) : Prop :=
  name ∉ d.sending ∧ name ∉ d.sent.map Prod.fst ∧ name ∉ d.dir

/-- A directory listing has every file that matches, in any order. -/
def Lists (d : Sneakernet) (glob : String → Bool) (names : List String) : Prop :=
  names.Nodup ∧ names.toFinset = d.dir.keys.filter fun n => glob n = true

/-- The steps the calls can take. Names are distinct, a file is renamed when it is written,
and the corrupt files do not unframe. -/
def Possible (d : Sneakernet) : FileEvent → Prop
  | .send timestamp bundleId _ => d.Fresh (bundleName timestamp bundleId)
  | .write filename _ _ => filename ∈ d.sending
  | .rename filename =>
    ((d.sending.lookup filename).any fun s =>
      (d.dir.lookup (tempName filename)).any fun file => file.bytes = s.framed) = true
  | .corrupt name file =>
    d.Fresh name ∧ matchesGlob "ddil_" ".bundle" name = true ∧
      (unframePayload sha256 file.bytes).isOk = false
  | .globPull names => d.receiving.next = .globPull ∧ d.Lists isPull names
  | .globPush names => d.receiving.next = .globPush ∧ d.Lists isPush names
  | .sort => d.receiving.next = .sort
  | .read => d.receiving.next = .read
  | .replace => d.receiving.next = .replace
  | .exhausted => d.receiving.next = .exhausted

instance (d : Sneakernet) (name : String) : Decidable (d.Fresh name) :=
  inferInstanceAs (Decidable (_ ∧ _ ∧ _))

instance (d : Sneakernet) (glob : String → Bool) (names : List String) :
    Decidable (d.Lists glob names) := inferInstanceAs (Decidable (_ ∧ _))

instance (d : Sneakernet) : (ev : FileEvent) → Decidable (d.Possible sha256 ev)
  | .send timestamp bundleId _ => inferInstanceAs (Decidable (d.Fresh (bundleName timestamp bundleId)))
  | .write filename _ _ => inferInstanceAs (Decidable (filename ∈ d.sending))
  | .rename _ => inferInstanceAs (Decidable (_ = _))
  | .corrupt name _ => inferInstanceAs (Decidable (d.Fresh name ∧ _ = _ ∧ _ = _))
  | .globPull names => inferInstanceAs (Decidable (_ = _ ∧ d.Lists isPull names))
  | .globPush names => inferInstanceAs (Decidable (_ = _ ∧ d.Lists isPush names))
  | .sort => inferInstanceAs (Decidable (_ = _))
  | .read => inferInstanceAs (Decidable (_ = _))
  | .replace => inferInstanceAs (Decidable (_ = _))
  | .exhausted => inferInstanceAs (Decidable (_ = _))

end Sneakernet
end Dhava
