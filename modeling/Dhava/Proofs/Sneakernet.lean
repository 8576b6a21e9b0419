import Dhava.Proofs.Framing
import Dhava.Spec.Sneakernet
import Mathlib.Data.Prod.Lex

/-! Exactly-once delivery over the sneakernet. A sent bundle is in the directory whole, or
delivered, never both, and a receive call lists all of the first kind before it reads. -/

namespace Dhava

open Foundations

/-! ### Names -/

theorem matchesGlob_suffix {before after name : String} (h : matchesGlob before after name = true) :
    after.toList <:+ name.toList := by
  unfold matchesGlob at h
  rw [Bool.and_eq_true, List.isSuffixOf_iff_suffix] at h
  exact h.2.trans (List.drop_suffix _ _)

theorem matchesGlob_append (before mid after : String) :
    matchesGlob before after (before ++ mid ++ after) = true := by
  unfold matchesGlob
  rw [Bool.and_eq_true, List.isPrefixOf_iff_prefix, List.isSuffixOf_iff_suffix,
    String.toList_append, String.toList_append, List.append_assoc, List.drop_left]
  exact ⟨List.prefix_append _ _, List.suffix_append _ _⟩

/-- No pattern for bundles matches a temporary file. -/
theorem ne_tempName_of_matchesGlob {before name : String}
    (h : matchesGlob before ".bundle" name = true) (filename : String) : name ≠ tempName filename := by
  rintro rfl
  have hbundle := matchesGlob_suffix h
  have htmp : ".tmp".toList <:+ (tempName filename).toList := by
    have hname : tempName filename = filename ++ ".tmp" := rfl
    rw [hname, String.toList_append]
    exact List.suffix_append _ _
  have hboth := List.suffix_of_suffix_length_le htmp hbundle (by decide)
  exact absurd hboth (by decide)

theorem isPush_bundleName (timestamp : ℤ) (bundleId : String) :
    isPush (bundleName timestamp bundleId) = true := by
  have hname : bundleName timestamp bundleId =
      "ddil_push_" ++ (toString timestamp ++ "_" ++ bundleId) ++ ".bundle" := by
    unfold bundleName
    simp only [String.append_assoc]
    rfl
  rw [hname]
  exact matchesGlob_append _ _ _

/-- The names a receive call looks at. -/
def isBundle (name : String) : Bool := isPull name || isPush name

theorem isBundle_of_isPush {name : String} (h : isPush name = true) : isBundle name = true := by
  rw [isBundle, h, Bool.or_true]

theorem ne_tempName {name : String} (h : isBundle name = true) (filename : String) :
    name ≠ tempName filename := by
  rcases Bool.or_eq_true_iff.1 h with hpull | hpush
  · exact ne_tempName_of_matchesGlob hpull filename
  · exact ne_tempName_of_matchesGlob hpush filename

namespace Sneakernet

variable (sha256 : Bytes → Digest)

/-- What the senders and the receiver keep of the directory and its history. -/
structure Kept (d : Sneakernet) : Prop where
  sentNames : (d.sent.map Prod.fst).Nodup
  sentPush : ∀ b ∈ d.sent, isPush b.1 = true
  deliveredNames : (d.delivered.map Prod.fst).Nodup
  deliveredSent : ∀ b ∈ d.delivered, b ∈ d.sent
  deliveredGone : ∀ b ∈ d.delivered, d.dir.lookup b.1 = none
  -- a bundle is whole from the moment its name is there
  whole : ∀ b ∈ d.sent, b ∈ d.delivered ∨
    ∃ file, d.dir.lookup b.1 = some file ∧ framePayload sha256 b.2 = .ok file.bytes
  foreign : ∀ name file, d.dir.lookup name = some file → isBundle name = true →
    name ∈ d.sent.map Prod.fst ∨ (unframePayload sha256 file.bytes).isOk = false
  sending : ∀ name s, d.sending.lookup name = some s →
    framePayload sha256 s.data = .ok s.framed ∧ isPush name = true ∧
      name ∉ d.sent.map Prod.fst ∧ d.dir.lookup name = none

variable {sha256} {d d' : Sneakernet}

/-- Only the bundles in the directory count, not the temporary files. -/
theorem Kept.congr (h : Kept sha256 d)
    (hdir : ∀ n, isBundle n = true → d'.dir.lookup n = d.dir.lookup n)
    (hsending : d'.sending = d.sending) (hsent : d'.sent = d.sent)
    (hdelivered : d'.delivered = d.delivered) : Kept sha256 d' := by
  have hpush : ∀ b ∈ d.sent, d'.dir.lookup b.1 = d.dir.lookup b.1 := fun b hb =>
    hdir _ (isBundle_of_isPush (h.sentPush b hb))
  refine ⟨?_, ?_, ?_, ?_, ?_, ?_, ?_, ?_⟩
  · rw [hsent]
    exact h.sentNames
  · rw [hsent]
    exact h.sentPush
  · rw [hdelivered]
    exact h.deliveredNames
  · rw [hdelivered, hsent]
    exact h.deliveredSent
  · rw [hdelivered]
    exact fun b hb => (hpush b (h.deliveredSent b hb)).trans (h.deliveredGone b hb)
  · rw [hsent, hdelivered]
    intro b hb
    rw [hpush b hb]
    exact h.whole b hb
  · intro name file hfile hbundle
    rw [hdir name hbundle] at hfile
    rw [hsent]
    exact h.foreign name file hfile hbundle
  · intro name s hs
    rw [hsending] at hs
    obtain ⟨hframed, hname, hnew, hgone⟩ := h.sending name s hs
    rw [hsent, hdir name (isBundle_of_isPush hname)]
    exact ⟨hframed, hname, hnew, hgone⟩

theorem Kept.send (h : Kept sha256 d) {timestamp : ℤ} {bundleId : String} {data framed : Bytes}
    (hf : framePayload sha256 data = .ok framed) (hfresh : d.Fresh (bundleName timestamp bundleId)) :
    Kept sha256
      { d with sending := d.sending.insert (bundleName timestamp bundleId) { data, framed } } := by
  obtain ⟨-, hsent, hdir⟩ := hfresh
  refine ⟨h.sentNames, h.sentPush, h.deliveredNames, h.deliveredSent, h.deliveredGone, h.whole,
    h.foreign, fun name s hs => ?_⟩
  by_cases hname : name = bundleName timestamp bundleId
  · subst hname
    rw [Finmap.lookup_insert] at hs
    obtain rfl := Option.some.inj hs
    exact ⟨hf, isPush_bundleName _ _, hsent, Finmap.lookup_eq_none.2 hdir⟩
  · rw [Finmap.lookup_insert_of_ne _ hname] at hs
    exact h.sending name s hs

theorem Kept.rename (h : Kept sha256 d) {filename : String} {s : Sending} {file : BundleFile}
    (hs : d.sending.lookup filename = some s) (hwritten : file.bytes = s.framed) :
    Kept sha256
      { d with
        dir := (d.dir.erase (tempName filename)).insert filename file
        sending := d.sending.erase filename
        sent := d.sent ++ [(filename, s.data)] } := by
  obtain ⟨hframed, hpush, hnew, hgone⟩ := h.sending filename s hs
  have hother : ∀ n, isBundle n = true → n ≠ filename →
      ((d.dir.erase (tempName filename)).insert filename file).lookup n = d.dir.lookup n := by
    intro n hn hne
    rw [Finmap.lookup_insert_of_ne _ hne, Finmap.lookup_erase_ne (ne_tempName hn filename)]
  have hsentOther : ∀ b ∈ d.sent,
      ((d.dir.erase (tempName filename)).insert filename file).lookup b.1 = d.dir.lookup b.1 := by
    intro b hb
    refine hother b.1 (isBundle_of_isPush (h.sentPush b hb)) ?_
    rintro rfl
    exact hnew (List.mem_map_of_mem hb)
  refine ⟨?_, ?_, h.deliveredNames, ?_, ?_, ?_, ?_, ?_⟩
  · rw [List.map_append, List.map_singleton]
    exact List.Nodup.append h.sentNames (List.nodup_singleton _) (by simpa using hnew)
  · intro b hb
    rcases List.mem_append.1 hb with hold | hlast
    · exact h.sentPush b hold
    · rw [List.mem_singleton.1 hlast]
      exact hpush
  · exact fun b hb => List.mem_append_left _ (h.deliveredSent b hb)
  · exact fun b hb => (hsentOther b (h.deliveredSent b hb)).trans (h.deliveredGone b hb)
  · intro b hb
    rcases List.mem_append.1 hb with hold | hlast
    · rw [hsentOther b hold]
      exact h.whole b hold
    · rw [List.mem_singleton.1 hlast]
      exact Or.inr ⟨file, Finmap.lookup_insert _, hwritten ▸ hframed⟩
  · intro name f hf hbundle
    by_cases hname : name = filename
    · exact Or.inl (by simp [hname])
    · rw [hother name hbundle hname] at hf
      refine (h.foreign name f hf hbundle).imp_left fun hmem => ?_
      rw [List.map_append]
      exact List.mem_append_left _ hmem
  · intro name t ht
    have hne : name ≠ filename := by
      rintro rfl
      rw [Finmap.lookup_erase] at ht
      cases ht
    rw [Finmap.lookup_erase_ne hne] at ht
    obtain ⟨hframed', hpush', hnew', hgone'⟩ := h.sending name t ht
    refine ⟨hframed', hpush', ?_, ?_⟩
    · simpa [hne] using hnew'
    · rw [hother name (isBundle_of_isPush hpush') hne]
      exact hgone'

theorem Kept.corrupt (h : Kept sha256 d) {name : String} {file : BundleFile}
    (hfresh : d.Fresh name) (hbad : (unframePayload sha256 file.bytes).isOk = false) :
    Kept sha256 { d with dir := d.dir.insert name file } := by
  obtain ⟨hsending, hsent, hdir⟩ := hfresh
  have hother : ∀ n, n ≠ name → (d.dir.insert name file).lookup n = d.dir.lookup n :=
    fun n hn => Finmap.lookup_insert_of_ne _ hn
  have hne : ∀ b ∈ d.sent, b.1 ≠ name := by
    rintro b hb rfl
    exact hsent (List.mem_map_of_mem hb)
  refine ⟨h.sentNames, h.sentPush, h.deliveredNames, h.deliveredSent, ?_, ?_, ?_, ?_⟩
  · exact fun b hb => (hother _ (hne b (h.deliveredSent b hb))).trans (h.deliveredGone b hb)
  · intro b hb
    rw [hother _ (hne b hb)]
    exact h.whole b hb
  · intro n f hf hbundle
    by_cases hn : n = name
    · subst hn
      rw [Finmap.lookup_insert] at hf
      obtain rfl := Option.some.inj hf
      exact Or.inr hbad
    · rw [hother n hn] at hf
      exact h.foreign n f hf hbundle
  · intro n s hs
    obtain ⟨hframed, hpush, hnew, hgone⟩ := h.sending n s hs
    have hn : n ≠ name := by
      rintro rfl
      exact hsending (Finmap.mem_of_lookup_eq_some hs)
    exact ⟨hframed, hpush, hnew, (hother n hn).trans hgone⟩

/-- A bundle that unframes is one of those sent, with the payload it was sent with. -/
theorem Kept.mem_sent (h : Kept sha256 d) {bundle : String} (hbundle : isBundle bundle = true)
    {file : BundleFile} (hfile : d.dir.lookup bundle = some file) {payload rest : Bytes}
    (hok : unframePayload sha256 file.bytes = .ok (payload, rest)) : (bundle, payload) ∈ d.sent := by
  rcases h.foreign bundle file hfile hbundle with hsent | hbad
  · obtain ⟨⟨name, data⟩, hmem, rfl⟩ := List.mem_map.1 hsent
    rcases h.whole _ hmem with hdelivered | ⟨file', hfile', hframed⟩
    · rw [h.deliveredGone _ hdelivered] at hfile
      cases hfile
    · obtain rfl := Option.some.inj (hfile.symm.trans hfile')
      have hdata := ((selfDelimiting sha256).exact file.bytes data []).2
        ⟨_, hframed, (List.append_nil _).symm⟩
      rw [hok] at hdata
      obtain ⟨rfl, -⟩ := Prod.mk.inj (Except.ok.inj hdata)
      exact hmem
  · rw [hok] at hbad
    cases hbad

theorem Kept.replace (h : Kept sha256 d) {bundle : String} {payload : Bytes} {file : BundleFile}
    (hfile : d.dir.lookup bundle = some file) (hsent : (bundle, payload) ∈ d.sent) :
    Kept sha256
      { d with
        dir := d.dir.erase bundle
        processed := d.processed.insert bundle file
        receiving := .idle
        delivered := d.delivered ++ [(bundle, payload)] } := by
  have hnew : bundle ∉ d.delivered.map Prod.fst := by
    intro hmem
    obtain ⟨b, hb, rfl⟩ := List.mem_map.1 hmem
    rw [h.deliveredGone b hb] at hfile
    cases hfile
  have hother : ∀ n, n ≠ bundle → (d.dir.erase bundle).lookup n = d.dir.lookup n :=
    fun n hn => Finmap.lookup_erase_ne hn
  have hgone : ∀ n, d.dir.lookup n = none → (d.dir.erase bundle).lookup n = none := by
    intro n hn
    by_cases hname : n = bundle
    · rw [hname]
      exact Finmap.lookup_erase _ _
    · rw [hother n hname]
      exact hn
  refine ⟨h.sentNames, h.sentPush, ?_, ?_, ?_, ?_, ?_, ?_⟩
  · rw [List.map_append, List.map_singleton]
    exact List.Nodup.append h.deliveredNames (List.nodup_singleton _) (by simpa using hnew)
  · intro b hb
    rcases List.mem_append.1 hb with hold | hlast
    · exact h.deliveredSent b hold
    · rw [List.mem_singleton.1 hlast]
      exact hsent
  · intro b hb
    rcases List.mem_append.1 hb with hold | hlast
    · exact hgone _ (h.deliveredGone b hold)
    · rw [List.mem_singleton.1 hlast]
      exact Finmap.lookup_erase _ _
  · intro b hb
    by_cases hname : b.1 = bundle
    · -- the names of sent bundles are distinct
      have hsame : b = (bundle, payload) := List.inj_on_of_nodup_map h.sentNames hb hsent hname
      exact Or.inl (by simp [hsame])
    · rw [hother _ hname]
      exact (h.whole b hb).imp_left fun hmem => List.mem_append_left _ hmem
  · intro name f hf hbundle
    have hne : name ≠ bundle := by
      rintro rfl
      rw [Finmap.lookup_erase] at hf
      cases hf
    rw [hother name hne] at hf
    exact h.foreign name f hf hbundle
  · intro name s hs
    obtain ⟨hframed, hpush, hfresh, hnone⟩ := h.sending name s hs
    exact ⟨hframed, hpush, hfresh, hgone name hnone⟩

/-! ### The receiver -/

end Sneakernet

namespace Receiving

theorem next_globPull {r : Receiving} (h : r.next = .globPull) : r = .idle := by
  unfold next at h
  split at h <;> first | rfl | cases h

theorem next_globPush {r : Receiving} (h : r.next = .globPush) : ∃ pulls, r = .globbed pulls := by
  unfold next at h
  split at h <;> first | exact ⟨_, rfl⟩ | cases h

theorem next_sort {r : Receiving} (h : r.next = .sort) : ∃ bundles, r = .listed bundles := by
  unfold next at h
  split at h <;> first | exact ⟨_, rfl⟩ | cases h

theorem next_read {r : Receiving} (h : r.next = .read) :
    ∃ bundle rest, r = .scanning (bundle :: rest) := by
  unfold next at h
  split at h <;> first | exact ⟨_, _, rfl⟩ | cases h

theorem next_replace {r : Receiving} (h : r.next = .replace) :
    ∃ bundle payload, r = .unframed bundle payload := by
  unfold next at h
  split at h <;> first | exact ⟨_, _, rfl⟩ | cases h

theorem next_exhausted {r : Receiving} (h : r.next = .exhausted) : r = .scanning [] := by
  unfold next at h
  split at h <;> first | rfl | cases h

end Receiving

/-- The names a `receive` call has listed and not passed. -/
def Receiving.bundles : Receiving → List String
  | .idle => []
  | .globbed names | .listed names | .scanning names => names
  | .unframed bundle _ => [bundle]

namespace Sneakernet

variable (sha256 : Bytes → Digest)

/-- What the receiver has listed is there, and what it has unframed is in the file. -/
structure Holds (d : Sneakernet) : Prop where
  listed : ∀ n ∈ d.receiving.bundles, isBundle n = true ∧ n ∈ d.dir
  unframed : ∀ bundle payload, d.receiving = .unframed bundle payload →
    ∃ file rest, d.dir.lookup bundle = some file ∧
      unframePayload sha256 file.bytes = .ok (payload, rest)

variable {d : Sneakernet}

/-- The steps of a `receive` call that change nothing but where it stands. -/
inductive Looks (d : Sneakernet) : Receiving → Prop
  | globPull {names : List String} (hidle : d.receiving = .idle) (hlists : d.Lists isPull names) :
    Looks d (.globbed names)
  | globPush {pulls names : List String} (hglobbed : d.receiving = .globbed pulls)
    (hlists : d.Lists isPush names) : Looks d (.listed (pulls ++ names))
  | sort {bundles sorted : List String} (hlisted : d.receiving = .listed bundles)
    (hperm : sorted.Perm bundles) : Looks d (.scanning sorted)
  | skip {bundle : String} {rest : List String} (hscanning : d.receiving = .scanning (bundle :: rest))
    (hbad : ∀ file, d.dir.lookup bundle = some file →
      ∀ result, unframePayload sha256 file.bytes ≠ .ok result) : Looks d (.scanning rest)
  | unframe {bundle : String} {rest : List String} {file : BundleFile} {payload remaining : Bytes}
    (hscanning : d.receiving = .scanning (bundle :: rest)) (hfile : d.dir.lookup bundle = some file)
    (hok : unframePayload sha256 file.bytes = .ok (payload, remaining)) :
    Looks d (.unframed bundle payload)
  | exhausted (hscanning : d.receiving = .scanning []) : Looks d .idle

/-- Everything a possible event can do. -/
inductive Moves (d : Sneakernet) : Sneakernet → Prop
  | refuse : Moves d d
  | send {timestamp : ℤ} {bundleId : String} {data framed : Bytes}
    (hf : framePayload sha256 data = .ok framed) (hfresh : d.Fresh (bundleName timestamp bundleId)) :
    Moves d
      { d with sending := d.sending.insert (bundleName timestamp bundleId) { data, framed } }
  | write (filename : String) (file : BundleFile) :
    Moves d { d with dir := d.dir.insert (tempName filename) file }
  | rename {filename : String} {s : Sending} {file : BundleFile}
    (hs : d.sending.lookup filename = some s) (hwritten : file.bytes = s.framed) :
    Moves d
      { d with
        dir := (d.dir.erase (tempName filename)).insert filename file
        sending := d.sending.erase filename
        sent := d.sent ++ [(filename, s.data)] }
  | corrupt {name : String} {file : BundleFile} (hfresh : d.Fresh name)
    (hbad : (unframePayload sha256 file.bytes).isOk = false) :
    Moves d { d with dir := d.dir.insert name file }
  | look {receiving : Receiving} (h : Looks sha256 d receiving) : Moves d { d with receiving }
  | replace {bundle : String} {payload : Bytes} {file : BundleFile}
    (hunframed : d.receiving = .unframed bundle payload) (hfile : d.dir.lookup bundle = some file) :
    Moves d
      { d with
        dir := d.dir.erase bundle
        processed := d.processed.insert bundle file
        receiving := .idle
        delivered := d.delivered ++ [(bundle, payload)] }

variable {sha256}

/-- The next bundle is unframed or skipped. -/
theorem step_read {bundle : String} {rest : List String}
    (hscanning : d.receiving = .scanning (bundle :: rest)) :
    Moves sha256 d (d.step sha256 .read) := by
  simp only [step, hscanning]
  cases hfile : d.dir.lookup bundle with
  | none => exact .look (.skip hscanning fun file h => by rw [hfile] at h; cases h)
  | some file =>
    simp only [Option.map_some]
    cases hok : unframePayload sha256 file.bytes with
    | ok result => exact .look (.unframe hscanning hfile hok)
    | error exc =>
      refine .look (.skip hscanning fun file' h result hresult => ?_)
      obtain rfl := Option.some.inj (hfile.symm.trans h)
      rw [hok] at hresult
      cases hresult

theorem moves_of_possible {ev : FileEvent} (hok : d.Possible sha256 ev) :
    Moves sha256 d (d.step sha256 ev) := by
  cases ev with
  | send timestamp bundleId data =>
    simp only [step]
    cases hf : framePayload sha256 data with
    | error exc => exact .refuse
    | ok framed => exact .send hf hok
  | write filename n mtime =>
    simp only [step]
    cases d.sending.lookup filename with
    | none => exact .refuse
    | some s => exact .write filename _
  | rename filename =>
    simp only [step]
    obtain ⟨s, hs, h⟩ := (Option.any_eq_true _ _).1 hok
    obtain ⟨file, hfile, hwritten⟩ := (Option.any_eq_true _ _).1 h
    rw [hs, hfile]
    exact .rename hs (of_decide_eq_true hwritten)
  | corrupt name file => exact .corrupt hok.1 hok.2.2
  | globPull names =>
    have hr := Receiving.next_globPull hok.1
    simp only [step, hr]
    exact .look (.globPull hr hok.2)
  | globPush names =>
    obtain ⟨pulls, hr⟩ := Receiving.next_globPush hok.1
    simp only [step, hr]
    exact .look (.globPush hr hok.2)
  | sort =>
    obtain ⟨bundles, hr⟩ := Receiving.next_sort hok
    simp only [step, hr]
    exact .look (.sort hr (List.perm_insertionSort _ _))
  | read =>
    obtain ⟨bundle, rest, hr⟩ := Receiving.next_read hok
    exact step_read hr
  | replace =>
    obtain ⟨bundle, payload, hr⟩ := Receiving.next_replace hok
    simp only [step, hr]
    cases hfile : d.dir.lookup bundle with
    | none => exact .refuse
    | some file => exact .replace hr hfile
  | exhausted =>
    have hr := Receiving.next_exhausted hok
    simp only [step, hr]
    exact .look (.exhausted hr)

theorem mem_of_lists {glob : String → Bool} {names : List String} (h : d.Lists glob names)
    (n : String) : n ∈ names ↔ n ∈ d.dir ∧ glob n = true := by
  rw [← List.mem_toFinset, h.2, Finset.mem_filter, Finmap.mem_keys]

/-! ### What every move keeps -/

variable {d' : Sneakernet}

theorem Kept.moves (h : Kept sha256 d) (hr : Holds sha256 d) (hm : Moves sha256 d d') :
    Kept sha256 d' := by
  cases hm with
  | refuse => exact h
  | send hf hfresh => exact h.send hf hfresh
  | write filename file =>
    exact h.congr (fun n hn => Finmap.lookup_insert_of_ne _ (ne_tempName hn filename)) rfl rfl rfl
  | rename hs hwritten => exact h.rename hs hwritten
  | corrupt hfresh hbad => exact h.corrupt hfresh hbad
  | look _ => exact h.congr (fun _ _ => rfl) rfl rfl rfl
  | @replace bundle payload file hunframed hfile =>
    obtain ⟨file', rest, hfile', hok⟩ := hr.unframed bundle payload hunframed
    obtain rfl := Option.some.inj (hfile.symm.trans hfile')
    have hbundle := (hr.listed bundle (by rw [hunframed]; simp [Receiving.bundles])).1
    exact h.replace hfile (h.mem_sent hbundle hfile hok)

theorem holds_of_idle (h : d.receiving = .idle) : Holds sha256 d := by
  refine ⟨fun n hn => ?_, fun bundle payload hunframed => ?_⟩
  · rw [h] at hn
    cases hn
  · rw [h] at hunframed
    cases hunframed

/-- The senders leave the bundles of the receiver where they are. -/
theorem Holds.of_stays (h : Holds sha256 d) (hreceiving : d'.receiving = d.receiving)
    (hdir : ∀ n file, isBundle n = true → d.dir.lookup n = some file →
      d'.dir.lookup n = some file) : Holds sha256 d' := by
  refine ⟨fun n hn => ?_, fun bundle payload hunframed => ?_⟩
  · rw [hreceiving] at hn
    obtain ⟨hbundle, hmem⟩ := h.listed n hn
    obtain ⟨file, hfile⟩ := Finmap.mem_iff.1 hmem
    exact ⟨hbundle, Finmap.mem_of_lookup_eq_some (hdir n file hbundle hfile)⟩
  · rw [hreceiving] at hunframed
    obtain ⟨file, rest, hfile, hok⟩ := h.unframed bundle payload hunframed
    have hbundle := (h.listed bundle (by rw [hunframed]; simp [Receiving.bundles])).1
    exact ⟨file, rest, hdir bundle file hbundle hfile, hok⟩

theorem Holds.look (h : Holds sha256 d) {receiving : Receiving} (hl : Looks sha256 d receiving) :
    Holds sha256 { d with receiving } := by
  cases hl with
  | globPull hidle hlists =>
    refine ⟨fun n hn => ?_, fun _ _ hu => by cases hu⟩
    obtain ⟨hmem, hpull⟩ := (mem_of_lists hlists n).1 hn
    exact ⟨by rw [isBundle, hpull, Bool.true_or], hmem⟩
  | globPush hglobbed hlists =>
    refine ⟨fun n hn => ?_, fun _ _ hu => by cases hu⟩
    rcases List.mem_append.1 hn with hpull | hpush
    · exact h.listed n (by rw [hglobbed]; exact hpull)
    · obtain ⟨hmem, hpush⟩ := (mem_of_lists hlists n).1 hpush
      exact ⟨isBundle_of_isPush hpush, hmem⟩
  | sort hlisted hperm =>
    refine ⟨fun n hn => ?_, fun _ _ hu => by cases hu⟩
    exact h.listed n (by rw [hlisted]; exact hperm.mem_iff.1 hn)
  | skip hscanning _ =>
    refine ⟨fun n hn => ?_, fun _ _ hu => by cases hu⟩
    exact h.listed n (by rw [hscanning]; exact List.mem_cons_of_mem _ hn)
  | @unframe bundle rest file payload remaining hscanning hfile hok =>
    refine ⟨fun n hn => ?_, fun b p hu => ?_⟩
    · obtain rfl := List.mem_singleton.1 hn
      exact h.listed n (by rw [hscanning]; exact List.mem_cons_self)
    · obtain ⟨rfl, rfl⟩ := Receiving.unframed.inj hu
      exact ⟨file, remaining, hfile, hok⟩
  | exhausted _ => exact holds_of_idle rfl

theorem Holds.moves (hr : Holds sha256 d) (h : Kept sha256 d) (hm : Moves sha256 d d') :
    Holds sha256 d' := by
  cases hm with
  | refuse => exact hr
  | send _ _ => exact hr.of_stays rfl fun _ _ _ hfile => hfile
  | write filename file =>
    refine hr.of_stays rfl fun n f hn hfile => ?_
    exact (Finmap.lookup_insert_of_ne _ (ne_tempName hn filename)).trans hfile
  | @rename filename s file hs hwritten =>
    refine hr.of_stays rfl fun n f hn hfile => ?_
    have hne : n ≠ filename := by
      rintro rfl
      rw [(h.sending n s hs).2.2.2] at hfile
      cases hfile
    rw [Finmap.lookup_insert_of_ne _ hne, Finmap.lookup_erase_ne (ne_tempName hn filename)]
    exact hfile
  | @corrupt name file hfresh hbad =>
    refine hr.of_stays rfl fun n f hn hfile => ?_
    have hne : n ≠ name := by
      rintro rfl
      exact hfresh.2.2 (Finmap.mem_of_lookup_eq_some hfile)
    exact (Finmap.lookup_insert_of_ne _ hne).trans hfile
  | look hl => exact hr.look hl
  | replace _ _ => exact holds_of_idle rfl

/-- The bundles in `owed` have been sent, and a call that has listed the directory has each
of them among the names it has not passed, unless it is delivered. -/
def Owed (owed : List (String × Bytes)) (d : Sneakernet) : Prop :=
  ∀ b ∈ owed, b ∈ d.sent ∧ ∀ names,
    d.receiving = .listed names ∨ d.receiving = .scanning names → b ∈ d.delivered ∨ b.1 ∈ names

theorem Owed.look {owed : List (String × Bytes)} (ho : Owed owed d) (h : Kept sha256 d)
    {receiving : Receiving} (hl : Looks sha256 d receiving) : Owed owed { d with receiving } := by
  intro b hb
  obtain ⟨hsent, hlisted⟩ := ho b hb
  refine ⟨hsent, fun names hnames => ?_⟩
  cases hl with
  | globPull hidle hlists => rcases hnames with hn | hn <;> cases hn
  | globPush hglobbed hlists =>
    rcases hnames with hn | hn <;> cases hn
    refine (h.whole b hsent).imp_right fun hwhole => ?_
    obtain ⟨file, hfile, -⟩ := hwhole
    exact List.mem_append_right _ ((mem_of_lists hlists b.1).2
      ⟨Finmap.mem_of_lookup_eq_some hfile, h.sentPush b hsent⟩)
  | sort hlist hperm =>
    rcases hnames with hn | hn <;> cases hn
    exact (hlisted _ (Or.inl hlist)).imp_right hperm.mem_iff.2
  | skip hscanning hbad =>
    rcases hnames with hn | hn <;> cases hn
    rcases hlisted _ (Or.inr hscanning) with hdelivered | hmem
    · exact Or.inl hdelivered
    rcases List.mem_cons.1 hmem with hhead | hrest
    · -- what is sent is whole, and would have been unframed
      refine (h.whole b hsent).imp_right fun hwhole => ?_
      obtain ⟨file, hfile, hframed⟩ := hwhole
      rw [hhead] at hfile
      exact absurd (((selfDelimiting sha256).exact file.bytes b.2 []).2
        ⟨_, hframed, (List.append_nil _).symm⟩) (hbad file hfile _)
    · exact Or.inr hrest
  | unframe _ _ _ => rcases hnames with hn | hn <;> cases hn
  | exhausted _ => rcases hnames with hn | hn <;> cases hn

theorem Owed.moves {owed : List (String × Bytes)} (ho : Owed owed d) (h : Kept sha256 d)
    (hm : Moves sha256 d d') : Owed owed d' := by
  cases hm with
  | refuse => exact ho
  | send _ _ => exact ho
  | write _ _ => exact ho
  | rename _ _ => exact fun b hb => ⟨List.mem_append_left _ (ho b hb).1, (ho b hb).2⟩
  | corrupt _ _ => exact ho
  | look hl => exact ho.look h hl
  | replace _ _ =>
    exact fun b hb => ⟨(ho b hb).1, fun _ hnames => by rcases hnames with hn | hn <;> cases hn⟩

/-- A name that is taken by a file nobody has sent. -/
def Stuck (name : String) (d : Sneakernet) : Prop := name ∉ d.sent.map Prod.fst ∧ name ∈ d.dir

theorem Stuck.moves {name : String} (hs : Stuck name d) (hname : ∀ f, name ≠ tempName f)
    (h : Kept sha256 d) (hr : Holds sha256 d) (hm : Moves sha256 d d') : Stuck name d' := by
  obtain ⟨hnew, hmem⟩ := hs
  cases hm with
  | refuse => exact ⟨hnew, hmem⟩
  | send _ _ => exact ⟨hnew, hmem⟩
  | write _ _ => exact ⟨hnew, Finmap.mem_insert.2 (Or.inr hmem)⟩
  | @rename filename s file hsending _ =>
    have hne : name ≠ filename := by
      rintro rfl
      exact Finmap.lookup_eq_none.1 (h.sending name s hsending).2.2.2 hmem
    refine ⟨by simpa [hne] using hnew, Finmap.mem_insert.2 (Or.inr ?_)⟩
    exact Finmap.mem_erase.2 ⟨hname filename, hmem⟩
  | corrupt _ _ => exact ⟨hnew, Finmap.mem_insert.2 (Or.inr hmem)⟩
  | look _ => exact ⟨hnew, hmem⟩
  | @replace bundle payload file hunframed hfile =>
    refine ⟨hnew, Finmap.mem_erase.2 ⟨?_, hmem⟩⟩
    rintro rfl
    obtain ⟨file', rest, hfile', hok⟩ := hr.unframed name payload hunframed
    have hbundle := (hr.listed name (by rw [hunframed]; simp [Receiving.bundles])).1
    exact hnew (List.mem_map_of_mem (h.mem_sent hbundle hfile' hok))

end Sneakernet

/-- How far a `receive` call is from its return. -/
def Receiving.remaining : Receiving → ℕ ×ₗ ℕ
  | .idle => toLex (0, 0)
  | .unframed _ _ => toLex (1, 0)
  | .scanning bundles => toLex (2, bundles.length)
  | .listed _ => toLex (3, 0)
  | .globbed _ => toLex (4, 0)

namespace Sneakernet

variable {sha256 : Bytes → Digest} {d : Sneakernet}

/-- A call that is not over has a next step. -/
theorem exists_continues (h : d.receiving ≠ .idle) :
    ∃ ev : FileEvent, ev.continues = true ∧ d.Possible sha256 ev := by
  rcases hr : d.receiving with - | pulls | bundles | (- | ⟨bundle, rest⟩) | ⟨bundle, payload⟩
  · exact absurd hr h
  · refine ⟨.globPush (d.dir.keys.filter fun n => isPush n = true).toList, rfl, by rw [hr]; rfl, ?_⟩
    exact ⟨Finset.nodup_toList _, Finset.toList_toFinset _⟩
  · exact ⟨.sort, rfl, congrArg Receiving.next hr⟩
  · exact ⟨.exhausted, rfl, congrArg Receiving.next hr⟩
  · exact ⟨.read, rfl, congrArg Receiving.next hr⟩
  · exact ⟨.replace, rfl, congrArg Receiving.next hr⟩

/-- Each step of a call brings it closer to its return. -/
theorem remaining_lt (hr : Holds sha256 d) {ev : FileEvent} (hev : ev.continues = true)
    (hok : d.Possible sha256 ev) :
    (d.step sha256 ev).receiving.remaining < d.receiving.remaining := by
  cases ev with
  | globPush names =>
    obtain ⟨pulls, hglobbed⟩ := Receiving.next_globPush hok.1
    simp only [step, hglobbed]
    exact Prod.Lex.toLex_lt_toLex.2 (Or.inl (Nat.lt_succ_self 3))
  | sort =>
    obtain ⟨bundles, hlisted⟩ := Receiving.next_sort hok
    simp only [step, hlisted]
    exact Prod.Lex.toLex_lt_toLex.2 (Or.inl (Nat.lt_succ_self 2))
  | read =>
    obtain ⟨bundle, rest, hscanning⟩ := Receiving.next_read hok
    simp only [step, hscanning]
    split
    · exact Prod.Lex.toLex_lt_toLex.2 (Or.inl (Nat.lt_succ_self 1))
    · exact Prod.Lex.toLex_lt_toLex.2 (Or.inr ⟨rfl, by simp⟩)
  | replace =>
    obtain ⟨bundle, payload, hunframed⟩ := Receiving.next_replace hok
    obtain ⟨file, rest, hfile, -⟩ := hr.unframed bundle payload hunframed
    simp only [step, hunframed, hfile]
    exact Prod.Lex.toLex_lt_toLex.2 (Or.inl Nat.one_pos)
  | exhausted =>
    have hscanning := Receiving.next_exhausted hok
    simp only [step, hscanning]
    exact Prod.Lex.toLex_lt_toLex.2 (Or.inl Nat.two_pos)
  | send _ _ _ => cases hev
  | write _ _ _ => cases hev
  | rename _ => cases hev
  | corrupt _ _ => cases hev
  | globPull _ => cases hev

/-! ### Runs -/

theorem kept_empty : Kept sha256 {} := by
  refine ⟨List.nodup_nil, ?_, List.nodup_nil, ?_, ?_, ?_, ?_, ?_⟩
  · exact fun b hb => by cases hb
  · exact fun b hb => by cases hb
  · exact fun b hb => by cases hb
  · exact fun b hb => by cases hb
  · exact fun name file hfile => by cases hfile
  · exact fun name s hs => by cases hs

/-- The induction rule for runs of the directory, over both invariants. -/
theorem run_invariant {P : Sneakernet → Prop} {evs : List FileEvent} (h : Kept sha256 d)
    (hr : Holds sha256 d) (hp : P d)
    (hstep : ∀ d d', Kept sha256 d → Holds sha256 d → Moves sha256 d d' → P d → P d')
    (hrun : Admitted (step sha256) (Possible sha256) d evs) :
    Kept sha256 (replay (step sha256) d evs) ∧ Holds sha256 (replay (step sha256) d evs) ∧
      P (replay (step sha256) d evs) := by
  refine hrun.invariant (P := fun d => Kept sha256 d ∧ Holds sha256 d ∧ P d) ⟨h, hr, hp⟩ ?_
  intro d ev hd hok
  obtain ⟨hk, hh, hpd⟩ := hd
  have hm := moves_of_possible hok
  exact ⟨hk.moves hh hm, hh.moves hk hm, hstep d _ hk hh hm hpd⟩

theorem run_kept {evs : List FileEvent}
    (hrun : Admitted (step sha256) (Possible sha256) {} evs) :
    Kept sha256 (replay (step sha256) {} evs) ∧ Holds sha256 (replay (step sha256) {} evs) := by
  obtain ⟨hk, hh, -⟩ := run_invariant (P := fun _ => True) kept_empty (holds_of_idle rfl) trivial
    (fun _ _ _ _ _ _ => trivial) hrun
  exact ⟨hk, hh⟩

/-- A call that finds nothing more has delivered whatever was sent when it began. -/
theorem delivered_of_exhausted {evs : List FileEvent} {names : List String}
    (h : Kept sha256 d) (hr : Holds sha256 d)
    (hrun : Admitted (step sha256) (Possible sha256) d (.globPull names :: (evs ++ [.exhausted]))) :
    ∀ b ∈ d.sent, b ∈ (replay (step sha256) d (.globPull names :: (evs ++ [.exhausted]))).delivered := by
  obtain ⟨hglob, hrest⟩ := hrun
  obtain ⟨hduring, hlast⟩ := (admitted_concat _ _).1 hrest
  have hm := moves_of_possible hglob
  have howed : Owed d.sent (d.step sha256 (.globPull names)) := by
    have hidle := Receiving.next_globPull hglob.1
    simp only [step, hidle]
    exact fun b hb => ⟨hb, fun _ hnames => by rcases hnames with hn | hn <;> cases hn⟩
  obtain ⟨-, -, hend⟩ := run_invariant (P := Owed d.sent) (h.moves hr hm) (hr.moves h hm) howed
    (fun _ _ hk _ hm ho => ho.moves hk hm) hduring
  change ∀ b ∈ d.sent, b ∈
    (replay (step sha256) (d.step sha256 (.globPull names)) (evs ++ [FileEvent.exhausted])).delivered
  rw [replay_concat]
  set last := replay (step sha256) (d.step sha256 (.globPull names)) evs
  have hscanning := Receiving.next_exhausted hlast
  simp only [step, hscanning]
  intro b hb
  exact ((hend b hb).2 [] (Or.inr hscanning)).resolve_right List.not_mem_nil

/-- A corrupt file is never returned. -/
theorem corrupt_not_delivered {evs : List FileEvent} {name : String} {file : BundleFile}
    (hrun : Admitted (step sha256) (Possible sha256) {} evs) (hmem : .corrupt name file ∈ evs) :
    name ∉ (replay (step sha256) {} evs).delivered.map Prod.fst := by
  obtain ⟨before, after, rfl⟩ := List.append_of_mem hmem
  obtain ⟨hbefore, hok, hafter⟩ := (admitted_append _ _).1 hrun
  obtain ⟨hk, hr⟩ := run_kept hbefore
  have hm := moves_of_possible hok
  have hstuck : Stuck name ((replay (step sha256) {} before).step sha256 (.corrupt name file)) :=
    ⟨hok.1.2.1, Finmap.mem_insert.2 (Or.inl rfl)⟩
  obtain ⟨hend, -, hnew, -⟩ := run_invariant (P := Stuck name) (hk.moves hr hm) (hr.moves hk hm)
    hstuck (fun _ _ hk hr hm hs => hs.moves (ne_tempName_of_matchesGlob hok.2.1) hk hr hm) hafter
  rw [replay_append]
  intro hdelivered
  obtain ⟨b, hb, hname⟩ := List.mem_map.1 hdelivered
  exact hnew (List.mem_map.2 ⟨b, hend.deliveredSent b hb, hname⟩)

/-- However the steps of the senders and of the receiver interleave, no bundle is delivered
twice, what is returned was sent, a call that returns nothing has left nothing behind that
was sent before it, and corrupt files neither come back nor keep a call from its end. -/
theorem sneakernet_exactly_once (sha256 : Bytes → Digest) (evs : List FileEvent)
    (hrun : Admitted (step sha256) (Possible sha256) {} evs) :
    let d := replay (step sha256) {} evs
    (d.delivered.map Prod.fst).Nodup ∧ (∀ b ∈ d.delivered, b ∈ d.sent) ∧
      (∀ before names during, evs = before ++ .globPull names :: (during ++ [.exhausted]) →
        ∀ b ∈ (replay (step sha256) {} before).sent, b ∈ d.delivered) ∧
      (∀ name file, .corrupt name file ∈ evs → name ∉ d.delivered.map Prod.fst) ∧
      (d.receiving ≠ .idle → ∃ ev : FileEvent, ev.continues = true ∧ d.Possible sha256 ev) ∧
      ∀ ev : FileEvent, ev.continues = true → d.Possible sha256 ev →
        (d.step sha256 ev).receiving.remaining < d.receiving.remaining := by
  intro d
  obtain ⟨hk, hr⟩ := run_kept hrun
  refine ⟨hk.deliveredNames, hk.deliveredSent, fun before names during hsplit => ?_,
    fun name file hmem => corrupt_not_delivered hrun hmem, exists_continues,
    fun ev hev hok => remaining_lt hr hev hok⟩
  obtain ⟨hbefore, hcall⟩ := (admitted_append _ _).1 (hsplit ▸ hrun)
  obtain ⟨hkb, hrb⟩ := run_kept hbefore
  have hend := delivered_of_exhausted hkb hrb hcall
  rw [← replay_append, ← hsplit] at hend
  exact hend

/-- A corrupt file that is older than the one bundle sent, and two `receive` calls. -/
def sampleRun : List FileEvent :=
  [.corrupt "ddil_pull_x.bundle" ⟨[0x44], 1⟩, .send 7 "a" [5], .write "ddil_push_7_a.bundle" 9 2,
    .write "ddil_push_7_a.bundle" 42 3, .rename "ddil_push_7_a.bundle",
    .globPull ["ddil_pull_x.bundle"], .globPush ["ddil_push_7_a.bundle"], .sort, .read, .read,
    .replace, .globPull ["ddil_pull_x.bundle"], .globPush [], .sort, .read, .exhausted]

theorem sneakernet_exactly_once_example :
    let d := replay (step sampleDigest) {} sampleRun
    d.delivered = [("ddil_push_7_a.bundle", [5])] ∧ (d.delivered.map Prod.fst).Nodup ∧
      "ddil_pull_x.bundle" ∉ d.delivered.map Prod.fst := by
  have hrun : Admitted (step sampleDigest) (Possible sampleDigest) {} sampleRun := by decide +kernel
  have h := sneakernet_exactly_once sampleDigest sampleRun hrun
  exact ⟨by decide +kernel, h.1, h.2.2.2.1 "ddil_pull_x.bundle" ⟨[0x44], 1⟩ List.mem_cons_self⟩

end Sneakernet
end Dhava
