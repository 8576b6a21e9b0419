import Dhava.Spec.LinkMonitor
import Dhava.Proofs.Failover
import Mathlib.Data.List.Destutter
import Mathlib.Data.List.ReduceOption

/-! What a status callback knows. It hears each change of the active link once, and of no
outage: its last word names the link in use, also where an outage has ended that use. -/

namespace Dhava

open Foundations

namespace LinkMonitor

variable (driver : LinkDriver)

/-- The name of the link a call would use. -/
def activeName (w : LinkMonitor) : Option String :=
  (w.manager.preferenceOrder.findSome? w.manager.probe).map Prod.fst

/-! ### One call -/

theorem manager_getActiveTransport (w : LinkMonitor) (now : ℚ) :
    (w.getActiveTransport driver now).1.manager = w.manager.getActiveTransport.1 ∧
      (w.getActiveTransport driver now).2 = w.manager.getActiveTransport.2 := by
  unfold getActiveTransport TransportManager.getActiveTransport
  cases hprobe : w.manager.preferenceOrder.findSome? w.manager.probe with
  | none => exact ⟨rfl, rfl⟩
  | some found =>
    by_cases h : w.manager.lastActiveName = some found.1
    · simp only [ne_eq, h, not_true_eq_false, if_false, and_true]
      rw [← h]
    · simp only [ne_eq, h, not_false_eq_true, if_true]
      exact ⟨rfl, trivial⟩

/-- The callbacks do not change what an exchange does. -/
theorem manager_exchange (w : LinkMonitor) (requestBytes : Bytes) (now elapsed : ℚ) :
    (w.exchange driver requestBytes now elapsed).1.manager =
        (w.manager.exchange requestBytes elapsed).1 ∧
      (w.exchange driver requestBytes now elapsed).2 =
        (w.manager.exchange requestBytes elapsed).2 := by
  obtain ⟨hmanager, hactive⟩ := manager_getActiveTransport driver w now
  unfold exchange TransportManager.exchange
  revert hmanager hactive
  rcases w.getActiveTransport driver now with ⟨w', active⟩
  rcases w.manager.getActiveTransport with ⟨m, active'⟩
  rintro rfl rfl
  cases active with
  | none => exact ⟨rfl, rfl⟩
  | some t =>
    dsimp only [settle]
    cases t.sendReceive requestBytes <;> exact ⟨rfl, rfl⟩

/-- The names a callback hears when the active link goes from `before` to `now`. -/
def news (before now : Option String) : List String := if before ≠ now then now.toList else []

/-- A call leaves the active link on record, and tells the callbacks what is new. -/
theorem getActiveTransport_spec (w : LinkMonitor) (now : ℚ) :
    (w.getActiveTransport driver now).1.manager.lastActiveName = w.activeName ∧
      ∃ statuses, (w.getActiveTransport driver now).1.heard = w.heard.map (· ++ statuses) ∧
        statuses.map TransportStatus.name = news w.manager.lastActiveName w.activeName := by
  unfold getActiveTransport activeName news
  cases hprobe : w.manager.preferenceOrder.findSome? w.manager.probe with
  | none => exact ⟨rfl, [], by simp, by simp⟩
  | some found =>
    by_cases h : w.manager.lastActiveName = some found.1
    · simp only [ne_eq, h, not_true_eq_false, if_false, Option.map_some]
      exact ⟨trivial, [], by simp, rfl⟩
    · simp only [ne_eq, h, not_false_eq_true, if_true, Option.map_some]
      exact ⟨rfl, _, rfl, rfl⟩

/-- The first status that says available is that of the link a call would use. -/
theorem find?_listAvailable (w : LinkMonitor) (now : ℚ) :
    ((w.listAvailable driver now).find? TransportStatus.available).map TransportStatus.name =
      w.activeName := by
  unfold listAvailable activeName
  induction w.manager.preferenceOrder with
  | nil => rfl
  | cons name rest ih =>
    cases hlookup : w.manager.transports.lookup name with
    | none =>
      have hprobe : w.manager.probe name = none := by rw [TransportManager.probe, hlookup]
      rw [List.filterMap_cons_none (by rw [hlookup]; rfl),
        List.findSome?_cons_of_isNone (by rw [hprobe]; rfl)]
      exact ih
    | some t =>
      rw [List.filterMap_cons_some (by rw [hlookup]; rfl), List.find?_cons, List.findSome?_cons,
        TransportManager.probe, hlookup]
      have havailable : (statusOf driver name t.isAvailable now).available = t.isAvailable := rfl
      simp only [havailable]
      cases t.isAvailable with
      | true => rfl
      | false => exact ih

theorem send_fst (w : LinkMonitor) (data : Bytes) (now elapsed : ℚ) :
    (w.send driver data now elapsed).1 = (w.getActiveTransport driver now).1 := by
  unfold send
  split <;> rename_i h <;> rw [h]
  dsimp only
  split <;> rfl

theorem receive_fst (w : LinkMonitor) (now : ℚ) :
    (w.receive driver now).1 = (w.getActiveTransport driver now).1 := by
  unfold receive
  split <;> rename_i h <;> rw [h]
  split <;> rfl

theorem exchange_fst (w : LinkMonitor) (requestBytes : Bytes) (now elapsed : ℚ) :
    (w.exchange driver requestBytes now elapsed).1 = (w.getActiveTransport driver now).1 := by
  unfold exchange
  split <;> rename_i h <;> rw [h]

/-- An event looks for a link, or leaves the record of the active link alone. -/
theorem step_cases (w : LinkMonitor) (ev : LinkEvent) :
    (∃ now, step driver w ev = (w.getActiveTransport driver now).1 ∧ found w ev = some w.activeName) ∨
      found w ev = none ∧ (step driver w ev).manager.lastActiveName = w.manager.lastActiveName ∧
        (∃ new, (step driver w ev).heard = w.heard ++ new) ∧
        ((step driver w ev).manager.transports = w.manager.transports ∨
          ∃ t : Transport, (step driver w ev).manager.transports =
            w.manager.transports.insert t.name t) := by
  have hsame : w.heard = w.heard ++ [] := (List.append_nil _).symm
  cases ev with
  | linkChanges t =>
    refine .inr ⟨rfl, ?_⟩
    unfold step
    by_cases h : t.name ∈ w.manager.transports
    · simp only [if_pos h]
      exact ⟨trivial, ⟨[], hsame⟩, .inr ⟨t, rfl⟩⟩
    · simp only [if_neg h]
      exact ⟨trivial, ⟨[], hsame⟩, .inl trivial⟩
  | addTransport t index => exact .inr ⟨rfl, rfl, ⟨[], hsame⟩, .inr ⟨t, rfl⟩⟩
  | registerStatusCallback => exact .inr ⟨rfl, rfl, ⟨[[]], rfl⟩, .inl rfl⟩
  | getActiveTransport now => exact .inl ⟨now, rfl, rfl⟩
  | send data now elapsed => exact .inl ⟨now, send_fst driver w data now elapsed, rfl⟩
  | receive now => exact .inl ⟨now, receive_fst driver w now, rfl⟩
  | exchange requestBytes now elapsed =>
    exact .inl ⟨now, exchange_fst driver w requestBytes now elapsed, rfl⟩

/-- What an event does to the record of the active link, and what the callbacks that are
there hear of it. -/
theorem step_spec (w : LinkMonitor) (ev : LinkEvent) :
    (step driver w ev).manager.lastActiveName =
        (found w ev).getD w.manager.lastActiveName ∧
      ∃ statuses new, (step driver w ev).heard = w.heard.map (· ++ statuses) ++ new ∧
        statuses.map TransportStatus.name =
          news w.manager.lastActiveName ((found w ev).getD w.manager.lastActiveName) := by
  rcases step_cases driver w ev with ⟨now, hstep, hfound⟩ | ⟨hfound, hlast, ⟨new, hheard⟩, -⟩
  · obtain ⟨hlast, statuses, hheard, hnames⟩ := getActiveTransport_spec driver w now
    rw [hstep, hfound]
    exact ⟨hlast, statuses, [], by rw [hheard, List.append_nil], hnames⟩
  · rw [hfound]
    exact ⟨hlast, [], new, by simpa using hheard, by simp [news]⟩

/-! ### A run -/

/-- The active link at each call of a run. -/
def actives (w : LinkMonitor) (evs : List LinkEvent) : List (Option String) :=
  (outputs (step driver) found w evs).reduceOption

/-- The changes along a sequence that starts behind `before`. -/
def changes (before : Option String) (seq : List (Option String)) : List String :=
  (seq.destutter' (· ≠ ·) before).tail.reduceOption

theorem destutter'_eq_cons (before : Option String) (seq : List (Option String)) :
    seq.destutter' (· ≠ ·) before = before :: (seq.destutter' (· ≠ ·) before).tail := by
  induction seq with
  | nil => rfl
  | cons now seq ih =>
    by_cases h : before = now
    · rw [List.destutter'_cons_neg _ (not_not_intro h)]
      exact ih
    · rw [List.destutter'_cons_pos _ h, List.tail_cons]

theorem changes_cons (before now : Option String) (seq : List (Option String)) :
    changes before (now :: seq) = news before now ++ changes now seq := by
  unfold changes news
  by_cases h : before = now
  · rw [if_neg (not_not_intro h), List.nil_append, List.destutter'_cons_neg _ (not_not_intro h), h]
  · rw [if_pos h, List.destutter'_cons_pos _ h, List.tail_cons, destutter'_eq_cons]
    cases now with
    | none => exact List.reduceOption_cons_of_none _
    | some name => exact List.reduceOption_cons_of_some name _

/-- The last name of a sequence that ends on a link. -/
theorem getLast?_toList_append_changes {before : Option String} {name : String}
    {seq : List (Option String)} (hlast : seq.getLast?.getD before = some name) :
    (before.toList ++ changes before seq).getLast? = some name := by
  induction seq generalizing before with
  | nil =>
    obtain rfl : before = some name := hlast
    rfl
  | cons now seq ih =>
    rw [List.getLast?_cons, Option.getD_some] at hlast
    rw [changes_cons, news]
    by_cases h : before = now
    · rw [if_neg (not_not_intro h), List.nil_append, h]
      exact ih hlast
    · rw [if_pos h, List.getLast?_append, ih hlast, Option.some_or]

/-- The last change names the link that is active last. -/
theorem getLast?_changes {before : Option String} {name : String} {seq : List (Option String)}
    (hlast : seq.getLast?.getD before = some name) (hbefore : before ≠ some name) :
    (changes before seq).getLast? = some name := by
  have h := getLast?_toList_append_changes hlast
  rw [List.getLast?_append] at h
  cases hc : (changes before seq).getLast? with
  | some last =>
    rw [hc, Option.some_or] at h
    exact h
  | none =>
    rw [hc, Option.none_or] at h
    cases before with
    | none => cases h
    | some b => exact absurd h hbefore

theorem lastActiveName_run (w : LinkMonitor) (evs : List LinkEvent) :
    (replay (step driver) w evs).manager.lastActiveName =
      (actives driver w evs).getLast?.getD w.manager.lastActiveName := by
  induction evs generalizing w with
  | nil => rfl
  | cons ev evs ih =>
    have h := ih (step driver w ev)
    rw [(step_spec driver w ev).1] at h
    unfold actives at h ⊢
    rw [outputs]
    refine h.trans ?_
    cases found w ev with
    | none => rw [List.reduceOption_cons_of_none]; rfl
    | some now =>
      rw [List.reduceOption_cons_of_some, List.getLast?_cons]
      rfl

/-- A callback that is there when a run starts hears the changes of the active link. -/
theorem heard_run {w : LinkMonitor} {i : ℕ} {heard : List TransportStatus}
    (hi : w.heard[i]? = some heard) (evs : List LinkEvent) :
    ∃ statuses, (replay (step driver) w evs).heard[i]? = some (heard ++ statuses) ∧
      statuses.map TransportStatus.name =
        changes w.manager.lastActiveName (actives driver w evs) := by
  induction evs generalizing w heard with
  | nil => exact ⟨[], by rw [List.append_nil]; exact hi, rfl⟩
  | cons ev evs ih =>
    obtain ⟨hlast, told, new, hheard, hnames⟩ := step_spec driver w ev
    have hi' : (step driver w ev).heard[i]? = some (heard ++ told) := by
      have hlen := (List.getElem?_eq_some_iff.1 hi).1
      rw [hheard, List.getElem?_append_left (by simpa using hlen), List.getElem?_map, hi]
      rfl
    obtain ⟨statuses, hend, hlater⟩ := ih hi'
    refine ⟨told ++ statuses, by rw [← List.append_assoc]; exact hend, ?_⟩
    rw [List.map_append, hnames, hlater, hlast]
    unfold actives
    rw [outputs]
    cases found w ev with
    | none => rw [List.reduceOption_cons_of_none, Option.getD_none, news]; simp
    | some now => rw [List.reduceOption_cons_of_some, changes_cons]; rfl

/-! ### The link in use -/

/-- Every transport is registered under its own name. -/
def Named (m : TransportManager) : Prop := ∀ name t, m.transports.lookup name = some t → t.name = name

theorem Named.insert {m m' : TransportManager} (h : Named m) {t : Transport}
    (hm : m'.transports = m.transports.insert t.name t) : Named m' := by
  intro name t' ht'
  rw [hm] at ht'
  by_cases hname : name = t.name
  · rw [hname, Finmap.lookup_insert] at ht'
    rw [hname, ← Option.some.inj ht']
  · exact h name t' (Finmap.lookup_insert_of_ne _ hname ▸ ht')

theorem Named.congr {m m' : TransportManager} (h : Named m) (hm : m'.transports = m.transports) :
    Named m' := fun name t ht => h name t (hm ▸ ht)

theorem named_new (transports : List Transport) (preferenceOrder : List String) :
    Named (.new transports preferenceOrder) := by
  have hfold : ∀ (l : List Transport) (d : Dict String Transport), Named ⟨d, [], none⟩ →
      Named ⟨l.foldl (fun d t => d.insert t.name t) d, [], none⟩ := by
    intro l
    induction l with
    | nil => exact fun d h => h
    | cons t rest ih => exact fun d h => ih _ (h.insert rfl)
  have hempty : Named ⟨∅, [], none⟩ := fun name t h => by
    rw [Finmap.lookup_empty] at h
    cases h
  exact (hfold transports ∅ hempty).congr rfl

theorem transports_getActiveTransport (w : LinkMonitor) (now : ℚ) :
    (w.getActiveTransport driver now).1.manager.transports = w.manager.transports := by
  rw [(manager_getActiveTransport driver w now).1]
  unfold TransportManager.getActiveTransport
  split <;> rfl

theorem named_step {w : LinkMonitor} (h : Named w.manager) (ev : LinkEvent) :
    Named (step driver w ev).manager := by
  rcases step_cases driver w ev with ⟨now, hstep, -⟩ | ⟨-, -, -, hsame | ⟨t, hinsert⟩⟩
  · rw [hstep]
    exact h.congr (transports_getActiveTransport driver w now)
  · exact h.congr hsame
  · exact h.insert hinsert

theorem named_run {w : LinkMonitor} (h : Named w.manager) (evs : List LinkEvent) :
    Named (replay (step driver) w evs).manager :=
  replay_invariant (P := fun w : LinkMonitor => Named w.manager) h
    (fun _ ev hw => named_step driver hw ev) evs

theorem active_named {w : LinkMonitor} (h : Named w.manager) {name : String}
    (hactive : w.activeName = some name) (now : ℚ) :
    ∃ t, (w.getActiveTransport driver now).2 = some t ∧ t.name = name := by
  obtain ⟨found, hfound, rfl⟩ := Option.map_eq_some_iff.1 hactive
  obtain ⟨name', -, hprobe⟩ := List.exists_of_findSome?_eq_some hfound
  refine ⟨found.2, ?_, ?_⟩
  · rw [(manager_getActiveTransport driver w now).2]
    unfold TransportManager.getActiveTransport
    rw [hfound]
  · unfold TransportManager.probe at hprobe
    cases hlookup : w.manager.transports.lookup name' with
    | none =>
      rw [hlookup] at hprobe
      cases hprobe
    | some t =>
      rw [hlookup] at hprobe
      dsimp only at hprobe
      split_ifs at hprobe
      obtain rfl := Option.some.inj hprobe
      exact h name' t hlookup

theorem transportUsed_send {w : LinkMonitor} (h : Named w.manager) {name : String}
    (hactive : w.activeName = some name) (data : Bytes) (now elapsed : ℚ) :
    (w.send driver data now elapsed).2.transportUsed = name := by
  obtain ⟨t, ht, rfl⟩ := active_named driver h hactive now
  unfold send
  split <;> rename_i hcall <;> rw [hcall] at ht
  · cases ht
  · obtain rfl := Option.some.inj ht
    dsimp only
    split <;> rfl

theorem transportUsed_exchange {w : LinkMonitor} (h : Named w.manager) {name : String}
    (hactive : w.activeName = some name) (requestBytes : Bytes) (now elapsed : ℚ) :
    (w.exchange driver requestBytes now elapsed).2.2.transportUsed = name := by
  obtain ⟨t, ht, rfl⟩ := active_named driver h hactive now
  unfold exchange
  split <;> rename_i hcall <;> rw [hcall] at ht
  · cases ht
  · obtain rfl := Option.some.inj ht
    dsimp only [settle]
    split <;> rfl

/-- The last status callback `i` heard names this link. -/
def LastWord (w : LinkMonitor) (i : ℕ) (name : String) : Prop :=
  ∃ heard, w.heard[i]? = some heard ∧ (heard.map TransportStatus.name).getLast? = some name

/-- A callback registered while another link or none was on record has heard of the link a
call uses by the time the call uses it. -/
theorem lastWord_call (w : LinkMonitor) (evs : List LinkEvent) {name : String}
    (hactive : (replay (step driver) w.registerStatusCallback evs).activeName = some name)
    (hbefore : w.manager.lastActiveName ≠ some name) (now : ℚ) :
    LastWord ((replay (step driver) w.registerStatusCallback evs).getActiveTransport driver now).1
      w.heard.length name := by
  set w' := replay (step driver) w.registerStatusCallback evs
  have hrun : (w'.getActiveTransport driver now).1 =
      replay (step driver) w.registerStatusCallback (evs ++ [.getActiveTransport now]) := by
    rw [replay_concat]
    rfl
  have hnew : w.registerStatusCallback.heard[w.heard.length]? = some [] :=
    List.getElem?_concat_length
  obtain ⟨statuses, hheard, hnames⟩ := heard_run driver hnew (evs ++ [.getActiveTransport now])
  have hlast := lastActiveName_run driver w.registerStatusCallback (evs ++ [.getActiveTransport now])
  rw [← hrun, (getActiveTransport_spec driver w' now).1, hactive] at hlast
  refine ⟨statuses, by rw [hrun]; exact hheard, ?_⟩
  rw [hnames]
  exact getLast?_changes hlast.symm hbefore

/-- Links come and go, transports and callbacks are added, and calls look for a link, in any
order. A callback hears the names of the link in use as they change from its registration on,
and nothing else; when a send or an exchange uses a link that was not on record at the
registration, the last name heard is the `transport_used` of its result. `list_available` shows
the same link as the first one available. -/
theorem callbacks_follow_link (transports : List Transport) (preferenceOrder : List String)
    (evs evs' : List LinkEvent) :
    let w := replay (step driver) ⟨.new transports preferenceOrder, []⟩ evs
    let w' := replay (step driver) w.registerStatusCallback evs'
    (∃ heard, w'.heard[w.heard.length]? = some heard ∧
      heard.map TransportStatus.name =
        changes w.manager.lastActiveName (actives driver w.registerStatusCallback evs')) ∧
    ∀ name, w'.activeName = some name → w.manager.lastActiveName ≠ some name →
      ∀ data now elapsed,
        ((w'.send driver data now elapsed).2.transportUsed = name ∧
          LastWord (w'.send driver data now elapsed).1 w.heard.length name) ∧
        (w'.exchange driver data now elapsed).2.2.transportUsed = name ∧
          LastWord (w'.exchange driver data now elapsed).1 w.heard.length name ∧
        ((w'.listAvailable driver now).find? TransportStatus.available).map TransportStatus.name =
          some name := by
  intro w w'
  refine ⟨?_, fun name hactive hbefore data now elapsed => ?_⟩
  · have hnew : w.registerStatusCallback.heard[w.heard.length]? = some [] :=
      List.getElem?_concat_length
    exact heard_run driver hnew evs'
  · have hnamed : Named w'.manager :=
      named_run driver (w := w.registerStatusCallback)
        (named_run driver (w := ⟨.new transports preferenceOrder, []⟩)
          (named_new transports preferenceOrder) evs) evs'
    rw [send_fst, exchange_fst]
    have hword := lastWord_call driver w evs' hactive hbefore now
    exact ⟨⟨transportUsed_send driver hnamed hactive data now elapsed, hword⟩,
      transportUsed_exchange driver hnamed hactive data now elapsed, hword,
      hactive ▸ find?_listAvailable driver w' now⟩

end LinkMonitor
end Dhava
