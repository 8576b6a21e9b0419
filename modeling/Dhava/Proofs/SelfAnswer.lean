import Dhava.Foundations.Selection
import Dhava.Proofs.Framing
import Dhava.Spec.FileTransport

/-! When a file transport takes the bundle it has just written for the peer's response. -/

namespace Dhava

open Foundations

namespace FileTransport

variable {δ : Type} [DecidableEq δ] {sha256 : Bytes → Digest}

/-! ### Which bundle is taken -/

/-- Every listed bundle has a time, and of those that can be taken `name` is the oldest, the one
listed first where the times are equal. -/
def NextUp (sha256 : Bytes → Digest) (dir : Dict String DirEntry) (call : FileCall) (name : String) :
    Prop :=
  let listing := call.pulls ++ call.pushes
  let time (bundle : String) : ℚ := (mtimeOf dir bundle).getD 0
  (∀ bundle ∈ listing, (mtimeOf dir bundle).isSome) ∧
    ∃ before after,
      (listing.filter fun bundle => (takes sha256 dir call.stuck bundle).isSome) =
        before ++ name :: after ∧
      (∀ bundle ∈ before, time name < time bundle) ∧ ∀ bundle ∈ after, time name ≤ time bundle

theorem fst_findSome? (f : String → Option Bytes) (names : List String) :
    (names.findSome? fun name => (f name).map fun payload => (name, payload)).map Prod.fst =
      names.find? fun name => (f name).isSome := by
  induction names with
  | nil => rfl
  | cons name rest ih =>
    rw [List.findSome?_cons, List.find?_cons]
    cases f name with
    | none => exact ih
    | some payload => rfl

theorem fst_taken (dir : Dict String DirEntry) (call : FileCall) (name : String) :
    (taken sha256 dir call).map Prod.fst = some name ↔ NextUp sha256 dir call name := by
  unfold taken bundles NextUp
  simp only
  set time : String → ℚ := fun bundle => (mtimeOf dir bundle).getD 0
  have : IsTrans String fun a b => time a ≤ time b := ⟨fun _ _ _ => le_trans⟩
  have : Std.Total fun a b : String => time a ≤ time b := ⟨fun a b => le_total (time a) (time b)⟩
  split_ifs with htimes
  · rw [and_iff_right (List.all_eq_true.1 htimes), fst_findSome?, ← List.head?_filter,
      filter_insertionSort, head?_insertionSort]
    simp only [not_le]
  · refine iff_of_false (fun h => by cases h) fun h => htimes ?_
    exact List.all_eq_true.2 h.1

/-! ### Where it goes -/

theorem takes_of_taken {dir : Dict String DirEntry} {call : FileCall} {bundle : String}
    {payload : Bytes} (h : taken sha256 dir call = some (bundle, payload)) :
    takes sha256 dir call.stuck bundle = some payload := by
  unfold taken at h
  cases hbundles : bundles dir call with
  | none =>
    rw [hbundles] at h
    cases h
  | some names =>
    rw [hbundles] at h
    obtain ⟨name, -, hname⟩ := List.exists_of_findSome?_eq_some h
    obtain ⟨payload', htakes, heq⟩ := Option.map_eq_some_iff.1 hname
    cases heq
    exact htakes

theorem lookup_of_takes {dir : Dict String DirEntry} {stuck : String → Bool} {bundle : String}
    {payload : Bytes} (h : takes sha256 dir stuck bundle = some payload) :
    ∃ entry, dir.lookup bundle = some entry := by
  unfold takes at h
  cases hlookup : dir.lookup bundle with
  | some entry => exact ⟨entry, rfl⟩
  | none =>
    rw [hlookup] at h
    cases h

/-- A bundle that holds a frame can only be taken for what was framed. -/
theorem payload_of_takes {dir : Dict String DirEntry} {stuck : String → Bool} {bundle : String}
    {data framed payload : Bytes} {mtime : Option ℚ} (hframe : framePayload sha256 data = .ok framed)
    (hlookup : dir.lookup bundle = some { bytes := some framed, mtime })
    (h : takes sha256 dir stuck bundle = some payload) : payload = data := by
  have hunframe : unframePayload sha256 framed = .ok (data, []) :=
    ((selfDelimiting sha256).exact framed data []).2 ⟨framed, hframe, (List.append_nil framed).symm⟩
  unfold takes at h
  simp only [hlookup, Option.bind_some, hunframe] at h
  split_ifs at h
  exact (Option.some.inj h).symm

/-- A moved bundle is in the `.processed` directory of the import directory, and every other
name stands for what it did. -/
theorem lookup_move (t : FileTransport δ) {fs : FileSystem δ} {bundle : String} {entry : DirEntry}
    (h : (fs.dirs t.importDir).lookup bundle = some entry) (dir : δ) (name : String) :
    ((t.move fs bundle).dirs dir).lookup name =
      if name = bundle then
        if dir = fs.processed t.importDir then some entry
        else if dir = t.importDir then none else (fs.dirs dir).lookup name
      else (fs.dirs dir).lookup name := by
  unfold move
  rw [h]
  simp only [Function.update_apply]
  by_cases hname : name = bundle
  · rw [if_pos hname, hname]
    by_cases hprocessed : dir = fs.processed t.importDir
    · rw [if_pos hprocessed, if_pos hprocessed, Finmap.lookup_insert]
    · rw [if_neg hprocessed, if_neg hprocessed]
      split_ifs
      · rw [Finmap.lookup_erase]
      · rfl
  · rw [if_neg hname]
    have herase : ∀ d : Dict String DirEntry, (d.erase bundle).lookup name = d.lookup name :=
      fun d => Finmap.lookup_erase_ne hname
    split_ifs with hprocessed himport himport
    · rw [Finmap.lookup_insert_of_ne _ hname, herase, hprocessed, himport]
    · rw [Finmap.lookup_insert_of_ne _ hname, hprocessed]
    · rw [herase, himport]
    · rfl

/-! ### A request and its response -/

/-- What a send that returned True has written. -/
theorem lookup_sent {t : FileTransport δ} {fs : FileSystem δ} {call : FileCall} {data : Bytes}
    (hsent : (t.send sha256 fs call data).1 = true) :
    ∃ framed, framePayload sha256 data = .ok framed ∧
      ((t.send sha256 fs call data).2.dirs t.exportDir).lookup
        (bundleName call.timestamp call.bundleId) =
          some { bytes := some framed, mtime := some call.mtime } := by
  unfold send at hsent ⊢
  cases hframe : framePayload sha256 data with
  | error exc =>
    rw [hframe] at hsent
    cases hsent
  | ok framed =>
    rw [hframe] at hsent
    refine ⟨framed, rfl, ?_⟩
    rcases hfault : call.fault with - | (- | left) | -
    · simp only [Function.update_self]
      exact Finmap.lookup_insert _
    all_goals
      rw [hfault] at hsent
      cases hsent

/-- What `receive` returns is what the next bundle up holds. -/
theorem fst_receive (t : FileTransport δ) (fs : FileSystem δ) (call : FileCall) (data : Bytes) :
    (t.receive sha256 fs call).1 ≠ some data ↔ ∀ name,
      NextUp sha256 (fs.dirs t.importDir) call name →
        takes sha256 (fs.dirs t.importDir) call.stuck name ≠ some data := by
  unfold receive
  constructor
  · intro h name hnext htakes
    obtain ⟨⟨bundle, payload⟩, htaken, hbundle⟩ := Option.map_eq_some_iff.1 ((fst_taken _ _ _).2 hnext)
    obtain rfl : bundle = name := hbundle
    rw [takes_of_taken htaken] at htakes
    rw [htaken] at h
    exact h htakes
  · intro h hreturned
    cases htaken : taken sha256 (fs.dirs t.importDir) call with
    | none =>
      rw [htaken] at hreturned
      cases hreturned
    | some found =>
      rw [htaken] at hreturned
      have hnext : NextUp sha256 (fs.dirs t.importDir) call found.1 :=
        (fst_taken _ _ _).1 (congrArg (Option.map Prod.fst) htaken)
      exact h found.1 hnext ((takes_of_taken htaken).trans hreturned)

/-- Where `receive` does not return the data of a bundle in the export directory, it leaves that
bundle there unless one of its name is moved over it. -/
theorem lookup_receive {t : FileTransport δ} {fs : FileSystem δ} {call : FileCall} {filename : String}
    {data framed : Bytes} {mtime : Option ℚ} (hframe : framePayload sha256 data = .ok framed)
    (hwritten : (fs.dirs t.exportDir).lookup filename = some { bytes := some framed, mtime })
    (hother : (t.receive sha256 fs call).1 ≠ some data) :
    ((t.receive sha256 fs call).2.dirs t.exportDir).lookup filename =
        some { bytes := some framed, mtime } ↔
      (fs.processed t.importDir = t.exportDir →
        ¬ NextUp sha256 (fs.dirs t.importDir) call filename) := by
  unfold receive at hother ⊢
  rw [← fst_taken]
  cases htaken : taken sha256 (fs.dirs t.importDir) call with
  | none => exact iff_of_true hwritten fun _ h => by cases h
  | some found =>
    obtain ⟨bundle, payload⟩ := found
    rw [htaken] at hother
    have htakes := takes_of_taken htaken
    obtain ⟨entry, hentry⟩ := lookup_of_takes htakes
    simp only [Option.map_some, Option.some.injEq, lookup_move t hentry]
    by_cases hname : filename = bundle
    · subst hname
      -- another file of that name, or its payload would be the data
      have hdiffers : entry ≠ { bytes := some framed, mtime } := by
        rintro rfl
        exact hother (congrArg some (payload_of_takes hframe hentry htakes))
      rw [if_pos rfl]
      split_ifs with hprocessed himport
      · exact iff_of_false (fun h => hdiffers (Option.some.inj h)) fun h => h hprocessed.symm rfl
      · rw [← himport] at hentry
        exact absurd (Option.some.inj (hentry.symm.trans hwritten)) hdiffers
      · exact iff_of_true hwritten fun h => absurd h.symm hprocessed
    · rw [if_neg hname]
      exact iff_of_true hwritten fun _ h => hname h.symm

/-- After a send that returned True, the bundle with the framed request is still in the export
directory and the request is not the response, exactly if the oldest bundle that can be taken in
the import directory does not hold the request and, should the `.processed` directory of that be
the export directory, is no file of the new bundle's name. -/
theorem send_receive_keeps_request (sha256 : Bytes → Digest) (t : FileTransport δ) (fs : FileSystem δ)
    (call : FileCall) (requestBytes : Bytes)
    (hsent : (t.send sha256 fs call requestBytes).1 = true) :
    let filename := bundleName call.timestamp call.bundleId
    let sent := (t.send sha256 fs call requestBytes).2
    let result := t.sendReceive sha256 fs call requestBytes
    ∃ framed, framePayload sha256 requestBytes = .ok framed ∧
      (((result.2.dirs t.exportDir).lookup filename =
            some { bytes := some framed, mtime := some call.mtime } ∧
          result.1 ≠ some requestBytes) ↔
        (∀ name, NextUp sha256 (sent.dirs t.importDir) call name →
          takes sha256 (sent.dirs t.importDir) call.stuck name ≠ some requestBytes) ∧
        (sent.processed t.importDir = t.exportDir →
          ¬ NextUp sha256 (sent.dirs t.importDir) call filename)) := by
  intro filename sent result
  obtain ⟨framed, hframe, hwritten⟩ := lookup_sent hsent
  have hresult : result = t.receive sha256 sent call := by
    have hsend : t.send sha256 fs call requestBytes = (true, sent) := Prod.ext hsent rfl
    change t.sendReceive sha256 fs call requestBytes = _
    rw [sendReceive, hsend]
  refine ⟨framed, hframe, ?_⟩
  rw [hresult, ← fst_receive, and_comm]
  exact and_congr_right fun hother => lookup_receive hframe hwritten hother

/-- With the default import directory an empty directory is enough: the request comes back as the
response, and its bundle is gone. -/
theorem default_transport_answers_itself :
    let t : FileTransport String := FileTransport.new "usb"
    let fs : FileSystem String := { dirs := fun _ => ∅, processed := fun dir => dir ++ "/.processed" }
    let filename := bundleName 100 "3f2a"
    let call : FileCall :=
      { timestamp := 100, bundleId := "3f2a", mtime := 100, pulls := [], pushes := [filename] }
    let result := t.sendReceive sampleDigest fs call [1, 2]
    (t.send sampleDigest fs call [1, 2]).1 = true ∧
      Lists ((t.send sampleDigest fs call [1, 2]).2.dirs "usb") call ∧
      result.1 = some [1, 2] ∧ (result.2.dirs "usb").lookup filename = none := by
  refine ⟨by decide +kernel, ⟨?_, ?_, ?_, ?_⟩, ?_, ?_⟩ <;> decide +kernel

/-- An import directory of its own, with an older answer of the peer in it. -/
theorem send_receive_keeps_request_apart :
    let t : FileTransport String := FileTransport.new "outbox" (some "inbox")
    let answer : DirEntry := { bytes := (framePayload sampleDigest [3]).toOption, mtime := some 90 }
    let inbox := Finmap.singleton "ddil_pull_90_77c1.bundle" answer
    let fs : FileSystem String :=
      { dirs := fun dir => if dir = "inbox" then inbox else ∅
        processed := fun dir => dir ++ "/.processed" }
    let call : FileCall :=
      { timestamp := 100, bundleId := "3f2a", mtime := 100
        pulls := ["ddil_pull_90_77c1.bundle"], pushes := [] }
    let result := t.sendReceive sampleDigest fs call [1, 2]
    ∃ framed, framePayload sampleDigest [1, 2] = .ok framed ∧
      (result.2.dirs "outbox").lookup (bundleName 100 "3f2a") =
        some { bytes := some framed, mtime := some 100 } ∧
      result.1 ≠ some [1, 2] := by
  intro t answer inbox fs call result
  obtain ⟨framed, hframe, hiff⟩ :=
    send_receive_keeps_request sampleDigest t fs call [1, 2] (by decide +kernel)
  refine ⟨framed, hframe, hiff.2 ⟨?_, fun hprocessed => ?_⟩⟩
  · rw [← fst_receive]
    decide +kernel
  · exact absurd hprocessed (by decide +kernel)

end FileTransport
end Dhava
