import Dhava.Proofs.AllOrNothing
import Dhava.Proofs.LamportCounter
import Dhava.Proofs.LwwOrder
import Dhava.Proofs.Request
import Dhava.Spec.Integers

/-! How far the counters get. A Lamport counter steps over every number it receives and a
version goes up by one with each write, so a received number near the end of a signed 64-bit
integer leaves no room for what comes after it. -/

namespace Dhava

open Foundations

variable {V : Type}

/-- The largest integer of a column. -/
def largest : ℤ := 2 ^ 63 - 1

theorem fitsInteger_iff {n : ℤ} :
    SqlValue.fitsInteger n = true ↔ -2 ^ 63 ≤ n ∧ n ≤ largest := by
  unfold SqlValue.fitsInteger largest
  rw [Bool.and_eq_true, decide_eq_true_iff, decide_eq_true_iff]
  omega

theorem TxEnd.binding_of_fits {n : ℤ} (h : SqlValue.fitsInteger n = true) :
    TxEnd.binding n = .committed := by
  rw [TxEnd.binding, SqlValue.bindInteger, if_pos h]

theorem TxEnd.binding_of_not_fits {n : ℤ} (h : SqlValue.fitsInteger n = false) :
    TxEnd.binding n = .raised "Python int too large to convert to SQLite INTEGER" := by
  rw [TxEnd.binding, SqlValue.bindInteger, if_neg (by rw [h]; decide)]

theorem TxEnd.commits_binding (n : ℤ) : (TxEnd.binding n).commits = SqlValue.fitsInteger n := by
  unfold TxEnd.binding SqlValue.bindInteger
  cases h : SqlValue.fitsInteger n <;> rfl

/-- Where every integer that is bound fits, the environment's fault is the only one. -/
theorem Fault.binding_of_fits {version : Option ℤ} {fault : Option Fault}
    (h : ∀ n, version = some n → SqlValue.fitsInteger n = true) :
    Fault.binding version fault = fault := by
  unfold Fault.binding
  cases version with
  | none => rfl
  | some n => rw [Option.map_some, SqlValue.bindInteger, if_pos (h n rfl)]

/-- A version that does not fit makes the store raise. -/
theorem Fault.binding_of_not_fits {n : ℤ} {fault : Option Fault}
    (h : SqlValue.fitsInteger n = false) :
    Fault.binding (some n) fault =
      some (.store "Python int too large to convert to SQLite INTEGER") := by
  rw [Fault.binding, Option.map_some, SqlValue.bindInteger, if_neg (by rw [h]; decide)]

section Loop

variable {σ : Type} (meets : σ → Option Fault → Operation V → Option Fault)
  (iterate : σ → Option Fault → Operation V → σ × Option String) (s : σ)
  (faults : ℕ → Option Fault) {d : OpDict V} {op : Operation V} (rest : List (OpDict V))

theorem Fault.inLoop_zero (hd : Operation.fromDict d = .ok op) :
    Fault.inLoop meets iterate s faults (d :: rest) 0 = meets s (faults 0) op := by
  simp only [Fault.inLoop, hd]

theorem Fault.inLoop_succ (hd : Operation.fromDict d = .ok op) :
    (fun i => Fault.inLoop meets iterate s faults (d :: rest) (i + 1)) =
      Fault.inLoop meets iterate (iterate s (meets s (faults 0) op) op).1
        (fun i => faults (i + 1)) rest := by
  funext i
  simp only [Fault.inLoop, hd]

end Loop

namespace LocalStore

/-- What the version column can hold. -/
def Fits (s : LocalStore V) : Prop :=
  ∀ key r, s.get key true = some r → SqlValue.fitsInteger r.version = true

/-- A row under this key could still be written. -/
def HasRoom (s : LocalStore V) (key : Key) : Prop :=
  ∀ r, s.get key true = some r → r.version < largest

theorem fits_empty : (empty : LocalStore V).Fits := fun _ _ h => by cases h

theorem Fits.applyOperation {s : LocalStore V} (h : s.Fits) {op : Operation V}
    (hversion : SqlValue.fitsInteger (s.boundVersion op) = true) : (s.applyOperation op).1.Fits := by
  intro key r hr
  rw [get_applyOperation] at hr
  split_ifs at hr with hkey
  · cases hr
    exact hversion
  · exact h key r hr

/-- A row is counted up. A new one starts at the Lamport timestamp. -/
theorem fits_boundVersion_iff {s : LocalStore V} (h : s.Fits) (op : Operation V) :
    SqlValue.fitsInteger (s.boundVersion op) = true ↔
      s.HasRoom op.key ∧ (s.get op.key true = none → op.lamportTimestamp ≤ largest) := by
  unfold boundVersion nextVersion HasRoom
  cases hrow : s.get op.key true with
  | none =>
    rw [fitsInteger_iff]
    simp only [reduceCtorEq, false_implies, implies_true, true_and, forall_const]
    have hone : (1 : ℤ) ≤ largest := by decide
    omega
  | some r =>
    have hstored := (fitsInteger_iff.1 (h op.key r hrow)).1
    rw [fitsInteger_iff]
    simp only [Option.some.injEq, forall_eq', reduceCtorEq, false_implies, and_true]
    omega

end LocalStore

namespace Engine

/-! ### One event -/

/-- What an event shows the Lamport counter. -/
def shown : CounterEvent V → Option ℤ
  | .call _ => none
  | .refuse .. => none
  | .pull _ remoteOp => some remoteOp.lamportTimestamp

theorem lamportCounter_count (e : Engine V) (ev : CounterEvent V) :
    (e.count ev).lamportCounter = climb e.lamportCounter (shown ev) := by
  have hone : ∀ n : ℤ, max n n + 1 = n + 1 := fun n => by rw [max_self]
  cases ev with
  | call c => exact (lamportCounter_callUnder e c _).trans (hone _).symm
  | refuse c exc => exact (lamportCounter_callUnder e c _).trans (hone _).symm
  | pull fault op => exact lamportCounter_pullOne e _ op

/-- The counter of a run steps over what the run has shown it. -/
theorem lamportCounter_replay (e : Engine V) (evs : List (CounterEvent V)) :
    (replay count e evs).lamportCounter = (evs.map shown).foldl climb e.lamportCounter := by
  induction evs generalizing e with
  | nil => rfl
  | cons ev rest ih =>
    change (replay count (e.count ev) rest).lamportCounter = _
    rw [ih, lamportCounter_count, List.map_cons, List.foldl_cons]

/-- What keeps an iteration from the store leaves it as it was. -/
theorem localStore_of_stopped (e : Engine V) {fault : Option Fault} {op : Operation V}
    (hstop : (∃ exc, fault = some (.read exc)) ∨ (∃ exc, fault = some (.store exc)) ∧
      e.conflictResolver.accepts (e.localStore.get op.key true) op = true) :
    (e.pullOne fault op).1.localStore = e.localStore := by
  rcases e.pullOne_cases fault op with ⟨hread, hstore, -⟩ | ⟨exc, -, h⟩ | ⟨exc, hf, -⟩
  · rcases hstop with ⟨exc, hf⟩ | ⟨⟨exc, hf⟩, hacc⟩
    · exact absurd hf (hread exc)
    · rw [hstore exc hf] at hacc
      cases hacc
  · rw [h]
    rfl
  · rw [hf] at hstop
    rcases hstop with ⟨_, h⟩ | ⟨⟨_, h⟩, -⟩ <;> cases h

/-- An iteration stores nothing, or a version that fits. -/
theorem localStore_pullMeets (e : Engine V) (fault : Option Fault) (op : Operation V) :
    (e.pullOne (e.pullMeets fault op) op).1.localStore = e.localStore ∨
      SqlValue.fitsInteger (e.localStore.boundVersion op) = true ∧
        (e.pullOne (e.pullMeets fault op) op).1.localStore = (e.localStore.applyOperation op).1 := by
  have hstore := (pullOne_pulled e (e.pullMeets fault op) op).localStore
  unfold ConflictResolver.process at hstore
  cases hacc : e.conflictResolver.accepts (e.localStore.get op.key true) op with
  | false =>
    rw [hacc, if_neg Bool.false_ne_true, or_self] at hstore
    exact Or.inl hstore
  | true =>
    rw [hacc, if_pos rfl] at hstore
    cases hfit : SqlValue.fitsInteger (e.localStore.boundVersion op) with
    | true => exact hstore.imp_right fun happlied => ⟨rfl, happlied⟩
    | false =>
      -- the fault is that of a read, or the overflow
      refine Or.inl (e.localStore_of_stopped ?_)
      unfold pullMeets pullBinds pullApplies
      have happlies :
          (e.conflictResolver.resolve (e.localStore.get op.key true) op).applies = true := hacc
      rcases fault with - | (exc | exc | exc)
      · simp only [happlies, if_pos, Fault.binding_of_not_fits hfit]
        exact Or.inr ⟨⟨_, rfl⟩, hacc⟩
      · exact Or.inl ⟨exc, rfl⟩
      · simp only [happlies, if_pos, Fault.binding_of_not_fits hfit]
        exact Or.inr ⟨⟨_, rfl⟩, hacc⟩
      · simp only [happlies, if_pos, Fault.binding_of_not_fits hfit]
        exact Or.inr ⟨⟨_, rfl⟩, hacc⟩

theorem fits_count {e : Engine V} (h : e.localStore.Fits) (ev : CounterEvent V) :
    (e.count ev).localStore.Fits := by
  have hcall : ∀ c (ends : WriteStep → TxEnd),
      (CommitsRecord ends → SqlValue.fitsInteger (e.localStore.boundVersion (e.stamped c)) = true) →
        (e.callUnder c ends).1.localStore.Fits := by
    intro c ends hends
    have hleft := callUnder_left e c ends
    by_cases hcommit : CommitsRecord ends
    · rw [hleft.record hcommit]
      exact h.applyOperation (hends hcommit)
    · rw [(hleft.neither hcommit).1]
      exact h
  cases ev with
  | call c => exact hcall c _ fun hcommit => (TxEnd.commits_binding _).symm.trans hcommit.2
  | refuse c exc => exact hcall c _ fun hcommit => by cases hcommit.1
  | pull fault op =>
    rcases e.localStore_pullMeets fault op with hsame | ⟨hfit, happlied⟩
    · exact hsame ▸ h
    · exact happlied ▸ h.applyOperation hfit

/-- The row an event writes over could still be counted up. -/
def HasRoom (e : Engine V) : CounterEvent V → Prop
  | .call c => e.localStore.HasRoom c.key
  | .refuse .. => True
  | .pull fault remoteOp =>
    e.pullApplies fault remoteOp = true → e.localStore.HasRoom remoteOp.key

/-- A call needs room for its Lamport timestamp and for its version, a received operation
for its version only. -/
theorem binds_fit_iff {e : Engine V} (h : e.localStore.Fits) (hcounter : 0 ≤ e.lamportCounter)
    (ev : CounterEvent V) (hev : ∀ n, shown ev = some n → SqlValue.fitsInteger n = true) :
    (∀ n ∈ e.binds ev, SqlValue.fitsInteger n = true) ↔
      (∀ c, ev = .call c → e.lamportCounter < largest) ∧ e.HasRoom ev := by
  cases ev with
  | call c =>
    have hversion := LocalStore.fits_boundVersion_iff h (e.stamped c)
    have hlamport : (e.stamped c).lamportTimestamp = e.lamportCounter + 1 := rfl
    change (∀ n ∈ if SqlValue.fitsInteger (e.localStore.boundVersion (e.stamped c)) then
        [e.localStore.boundVersion (e.stamped c), (e.stamped c).lamportTimestamp]
      else [e.localStore.boundVersion (e.stamped c)], SqlValue.fitsInteger n = true) ↔ _
    constructor
    · intro hall
      have hfit : SqlValue.fitsInteger (e.localStore.boundVersion (e.stamped c)) = true := by
        refine hall _ ?_
        split_ifs <;> exact List.mem_cons_self
      rw [if_pos hfit] at hall
      have hbound := (fitsInteger_iff.1 (hall _ (List.mem_cons_of_mem _ List.mem_cons_self))).2
      refine ⟨fun _ _ => ?_, (hversion.1 hfit).1⟩
      omega
    · rintro ⟨hroom, hrow⟩
      have hless := hroom c rfl
      have hfit := hversion.2 ⟨hrow, fun _ => by omega⟩
      rw [if_pos hfit, List.forall_mem_cons, List.forall_mem_singleton]
      exact ⟨hfit, fitsInteger_iff.2 ⟨by omega, by omega⟩⟩
  | refuse c exc => exact iff_of_true (fun _ hn => by cases hn) ⟨(fun _ he => by cases he), trivial⟩
  | pull fault op =>
    have hversion := LocalStore.fits_boundVersion_iff h op
    have hlamport := (fitsInteger_iff.1 (hev op.lamportTimestamp rfl)).2
    rw [and_iff_right fun _ he => by cases he]
    change (∀ n ∈ (e.pullBinds fault op).toList, _) ↔ (_ → _)
    unfold pullBinds
    cases e.pullApplies fault op with
    | false => simp
    | true =>
      rw [if_pos rfl, Option.toList_some, List.forall_mem_singleton, hversion]
      exact ⟨fun hrow _ => hrow.1, fun hrow => ⟨hrow rfl, fun _ => hlamport⟩⟩

/-! ### A run -/

/-- Before each call few enough operations were handled, since the start and since each
Lamport timestamp that came in. -/
def LamportRoom (evs : List (CounterEvent V)) : Prop :=
  ∀ before c after, evs = before ++ .call c :: after →
    before.length < largest ∧
      ∀ earlier fault remoteOp later, before = earlier ++ .pull fault remoteOp :: later →
        remoteOp.lamportTimestamp + 1 + later.length < largest

theorem lamportRoom_iff {e : Engine V} (hcounter : e.lamportCounter = 0)
    (evs : List (CounterEvent V)) :
    Admitted count (fun e ev => ∀ c, ev = .call c → e.lamportCounter < largest) e evs ↔
      LamportRoom evs := by
  have hshown : ∀ before : List (CounterEvent V),
      (replay count e before).lamportCounter < largest ↔
        before.length < largest ∧
          ∀ earlier fault remoteOp later, before = earlier ++ .pull fault remoteOp :: later →
            remoteOp.lamportTimestamp + 1 + later.length < largest := by
    intro before
    rw [lamportCounter_replay, hcounter, foldl_climb_lt_iff, List.length_map, zero_add]
    refine and_congr_right fun _ => ⟨fun hall earlier fault op later hsplit => ?_,
      fun hall earlier n later hsplit => ?_⟩
    · have hn := hall (earlier.map shown) op.lamportTimestamp (later.map shown)
        (by rw [hsplit, List.map_append, List.map_cons]; rfl)
      rwa [List.length_map] at hn
    · obtain ⟨earlier', rest, rfl, rfl, hrest⟩ := List.map_eq_append_iff.1 hsplit
      obtain ⟨ev, later', rfl, hev, rfl⟩ := List.map_eq_cons_iff.1 hrest
      cases ev with
      | call c => cases hev
      | refuse c exc => cases hev
      | pull fault op =>
        cases hev
        rw [List.length_map]
        exact hall earlier' fault op later' rfl
  rw [admitted_iff_split]
  refine ⟨fun h before c after hsplit => (hshown before).1 (h before _ after hsplit c rfl), ?_⟩
  rintro h before ev after hsplit c rfl
  exact (hshown before).2 (h before c after hsplit)

/-- The integers the events of a run try to write, one after the other. -/
def bindsBy (e : Engine V) (evs : List (CounterEvent V)) : List ℤ := (outputs count binds e evs).flatten

/-- From any boot on. -/
theorem bindsBy_fit_iff {e : Engine V} (h : e.localStore.Fits) (hcounter : e.lamportCounter = 0)
    {evs : List (CounterEvent V)}
    (hevs : ∀ fault op, .pull fault op ∈ evs → SqlValue.fitsInteger op.lamportTimestamp = true) :
    (∀ n ∈ e.bindsBy evs, SqlValue.fitsInteger n = true) ↔
      LamportRoom evs ∧ Admitted count HasRoom e evs := by
  unfold bindsBy
  rw [List.forall_mem_flatten,
    forall_mem_outputs_iff _ fun ns : List ℤ => ∀ n ∈ ns, SqlValue.fitsInteger n = true,
    ← lamportRoom_iff hcounter, ← admitted_and]
  refine admitted_congr (I := fun e => e.localStore.Fits ∧ 0 ≤ e.lamportCounter) ⟨h, hcounter.ge⟩
    (fun e ev _ hI => ⟨fits_count hI.1 ev, ?_⟩) fun e ev hev hI => binds_fit_iff hI.1 hI.2 ev ?_
  · rw [lamportCounter_count]
    exact hI.2.trans (lt_climb _ _).le
  · cases ev with
    | call c => exact fun n hn => by cases hn
    | refuse c exc => exact fun n hn => by cases hn
    | pull fault op =>
      rintro n hn
      cases hn
      exact hevs fault op hev

/-- Where all it binds fits, an event does what it does without the bound. -/
theorem count_of_fits {e : Engine V} {ev : CounterEvent V}
    (h : ∀ n ∈ e.binds ev, SqlValue.fitsInteger n = true) :
    e.count ev = match ev with
      | .call c => (e.call c).1
      | .refuse c exc => (e.callUnder c fun _ => .raised exc).1
      | .pull fault remoteOp => (e.pullOne fault remoteOp).1 := by
  cases ev with
  | call c =>
    have hversion : SqlValue.fitsInteger (e.localStore.boundVersion (e.stamp c).2) = true := by
      refine h _ ?_
      simp only [binds]
      split_ifs <;> exact List.mem_cons_self
    have hlamport : SqlValue.fitsInteger (e.stamp c).2.lamportTimestamp = true := by
      refine h _ ?_
      simp only [binds]
      rw [if_pos hversion]
      exact List.mem_cons_of_mem _ List.mem_cons_self
    refine Eq.trans (congrArg (fun ends => (e.callUnder c ends).1) ?_)
      (congrArg Prod.fst (callUnder_committed e c))
    funext step
    cases step with
    | apply => exact TxEnd.binding_of_fits hversion
    | enqueue => exact TxEnd.binding_of_fits hlamport
    | readClock => rfl
    | audit => rfl
  | refuse c exc => rfl
  | pull fault op =>
    have hfault : e.pullMeets fault op = fault := by
      refine Fault.binding_of_fits fun n hn => h n ?_
      change n ∈ (e.pullBinds fault op).toList
      rw [hn]
      exact List.mem_singleton_self n
    change (e.pullOne (e.pullMeets fault op) op).1 = _
    rw [hfault]

/-- Once the counter is at the largest integer, every later call of the process raises. -/
theorem callBinding_raises {e : Engine V} (hcounter : largest ≤ e.lamportCounter)
    (evs : List (CounterEvent V)) (c : LocalCall V) :
    ((replay count e evs).callBinding c).2 =
      .raised "Python int too large to convert to SQLite INTEGER" := by
  have hlater : largest ≤ (replay count e evs).lamportCounter := by
    refine hcounter.trans (le_replay lamportCounter (fun e ev => ?_) e evs)
    rw [lamportCounter_count]
    exact (lt_climb _ _).le
  generalize replay count e evs = e at hlater
  have hlamport : SqlValue.fitsInteger (e.stamp c).2.lamportTimestamp = false := by
    refine Bool.not_eq_true _ ▸ fun hfit => ?_
    have hle : e.lamportCounter + 1 ≤ largest := (fitsInteger_iff.1 hfit).2
    omega
  unfold callBinding callUnder
  cases hversion : SqlValue.fitsInteger (e.localStore.boundVersion (e.stamp c).2) with
  | false => simp only [TxEnd.binding_of_not_fits hversion]
  | true =>
    simp only [TxEnd.binding_of_fits hversion, enqueueUnder, TxEnd.binding_of_not_fits hlamport]

/-- The pull loop of a session is a run of the operations it has come to. -/
theorem pullLoopBinding_replay (e : Engine V) (faults : ℕ → Option Fault) (dicts : List (OpDict V)) :
    (e.pullLoopBinding faults dicts).engine =
      replay count e ((e.pullLoopBinding faults dicts).processed.mapIdx fun i op => .pull (faults i) op) := by
  unfold pullLoopBinding
  induction dicts generalizing e faults with
  | nil => rfl
  | cons d rest ih =>
    unfold pullLoop
    cases hd : Operation.fromDict d with
    | error exc => rfl
    | ok op =>
      simp only [Fault.inLoop_zero _ _ _ _ _ hd, Fault.inLoop_succ _ _ _ _ _ hd]
      rcases hp : e.pullOne (e.pullMeets (faults 0) op) op with ⟨e', - | exc⟩
      · have hcount : e.count (.pull (faults 0) op) = e' := congrArg Prod.fst hp
        simp only
        rw [ih, List.mapIdx_cons]
        change _ = replay count (e.count (.pull (faults 0) op)) _
        rw [hcount]
      · exact (congrArg Prod.fst hp).symm

end Engine

namespace Server

/-- What keeps an accepted operation from the store raises. -/
theorem raisesOn_of_accepts (srv : Server V) {fault : Option Fault} {op : Operation V}
    (hacc : srv.conflictResolver.accepts (srv.localStore.get op.key true) op = true)
    (hreach : srv.pushApplies fault op = false) : srv.raisesOn op fault = true := by
  have happlies : (srv.conflictResolver.resolve (srv.localStore.get op.key true) op).applies = true :=
    hacc
  unfold pushApplies at hreach
  rcases fault with - | (exc | exc | exc)
  · exact absurd (happlies.symm.trans hreach) (by decide)
  · rfl
  · exact absurd (happlies.symm.trans hreach) (by decide)
  · simp only [happlies, Bool.true_and, Bool.not_eq_false'] at hreach
    exact hreach

/-- An iteration stores nothing, or a version that fits. -/
theorem localStore_pushMeets (srv : Server V) (fault : Option Fault) (op : Operation V) :
    (srv.pushOne (srv.pushMeets fault op) op).1.localStore = srv.localStore ∨
      SqlValue.fitsInteger (srv.localStore.boundVersion op) = true ∧
        (srv.pushOne (srv.pushMeets fault op) op).1.localStore =
          (srv.localStore.applyOperation op).1 := by
  have hstore := (srv.pushOne_pushed (srv.pushMeets fault op) op).localStore
  have hraised : srv.raisesOn op (srv.pushMeets fault op) = true →
      (srv.pushOne (srv.pushMeets fault op) op).1.localStore = srv.localStore := by
    intro hraises
    rw [hstore, if_pos hraises]
  unfold ConflictResolver.process at hstore
  cases hacc : srv.conflictResolver.accepts (srv.localStore.get op.key true) op with
  | false =>
    rw [hacc, if_neg Bool.false_ne_true, ite_self] at hstore
    exact Or.inl hstore
  | true =>
    cases hreach : srv.pushApplies fault op with
    | false =>
      have hfault : srv.pushMeets fault op = fault := by
        rw [pushMeets, pushBinds, hreach]
        rfl
      exact Or.inl (hraised (hfault.symm ▸ srv.raisesOn_of_accepts hacc hreach))
    | true =>
      cases hfit : SqlValue.fitsInteger (srv.localStore.boundVersion op) with
      | false =>
        refine Or.inl (hraised ?_)
        rw [pushMeets, pushBinds, if_pos hreach, Fault.binding_of_not_fits hfit]
        exact hacc
      | true =>
        rw [hacc, if_pos rfl] at hstore
        split_ifs at hstore
        · exact Or.inl hstore
        · exact Or.inr ⟨rfl, hstore⟩

theorem fits_count {srv : Server V} (h : srv.localStore.Fits) (ev : Option Fault × Operation V) :
    (srv.count ev).localStore.Fits := by
  rcases srv.localStore_pushMeets ev.1 ev.2 with hsame | ⟨hfit, happlied⟩
  · exact hsame ▸ h
  · exact happlied ▸ h.applyOperation hfit

/-- The row an operation writes over could still be counted up. -/
def HasRoom (srv : Server V) (ev : Option Fault × Operation V) : Prop :=
  srv.pushApplies ev.1 ev.2 = true → srv.localStore.HasRoom ev.2.key

theorem binds_fit_iff {srv : Server V} (h : srv.localStore.Fits) (ev : Option Fault × Operation V)
    (hev : SqlValue.fitsInteger ev.2.lamportTimestamp = true) :
    (∀ n ∈ srv.binds ev, SqlValue.fitsInteger n = true) ↔ srv.HasRoom ev := by
  have hversion := LocalStore.fits_boundVersion_iff h ev.2
  unfold binds pushBinds HasRoom
  cases srv.pushApplies ev.1 ev.2 with
  | false => simp
  | true =>
    rw [if_pos rfl, Option.toList_some, List.forall_mem_singleton, hversion]
    exact ⟨fun hrow _ => hrow.1, fun hrow => ⟨hrow rfl, fun _ => (fitsInteger_iff.1 hev).2⟩⟩

/-- The versions the operations of a run try to write, one after the other. -/
def bindsBy (srv : Server V) (evs : List (Option Fault × Operation V)) : List ℤ :=
  (outputs count binds srv evs).flatten

theorem bindsBy_fit_iff {srv : Server V} (h : srv.localStore.Fits)
    {evs : List (Option Fault × Operation V)}
    (hevs : ∀ ev ∈ evs, SqlValue.fitsInteger ev.2.lamportTimestamp = true) :
    (∀ n ∈ srv.bindsBy evs, SqlValue.fitsInteger n = true) ↔ Admitted count HasRoom srv evs := by
  unfold bindsBy
  rw [List.forall_mem_flatten,
    forall_mem_outputs_iff _ fun ns : List ℤ => ∀ n ∈ ns, SqlValue.fitsInteger n = true]
  exact admitted_congr (I := fun srv => srv.localStore.Fits) h (fun srv ev _ hI => fits_count hI ev)
    fun srv ev hev hI => binds_fit_iff hI ev (hevs ev hev)

/-- The push loop of a request is a run of operations it has decoded, in their order. -/
theorem pushLoopBinding_replay (srv : Server V) (faults : ℕ → Option Fault) (dicts : List (OpDict V)) :
    ∃ evs : List (Option Fault × Operation V),
      evs.map Prod.snd <+: Operation.decoded dicts ∧
        (srv.pushLoopBinding faults dicts).processed <+: evs.map Prod.snd ∧
        (srv.pushLoopBinding faults dicts).server = replay count srv evs := by
  unfold pushLoopBinding
  induction dicts generalizing srv faults with
  | nil => exact ⟨[], List.nil_prefix, List.prefix_refl _, rfl⟩
  | cons d rest ih =>
    unfold pushLoop
    cases hd : Operation.fromDict d with
    | error exc => exact ⟨[], List.nil_prefix, List.prefix_refl _, rfl⟩
    | ok op =>
      simp only [Fault.inLoop_zero _ _ _ _ _ hd, Fault.inLoop_succ _ _ _ _ _ hd,
        Operation.decoded_cons hd]
      rcases hp : srv.pushOne (srv.pushMeets (faults 0) op) op with ⟨srv', - | exc⟩
      · obtain ⟨evs, hdecoded, hprocessed, hend⟩ := ih srv' fun i => faults (i + 1)
        refine ⟨(faults 0, op) :: evs, List.cons_prefix_cons.2 ⟨rfl, hdecoded⟩,
          List.cons_prefix_cons.2 ⟨rfl, hprocessed⟩, hend.trans ?_⟩
        exact congrArg (replay count · evs) (congrArg Prod.fst hp).symm
      · refine ⟨[(faults 0, op)], List.cons_prefix_cons.2 ⟨rfl, List.nil_prefix⟩,
          List.nil_prefix, (congrArg Prod.fst hp).symm⟩

end Server

/-- Whatever an engine and a server receive, they write no integer that does not fit, exactly if
before each local call the Lamport timestamps that came in have left room for all that was
handled since, and no write meets a row whose version is the largest integer. -/
theorem counters_storable_iff {nodeId : String} {config : EngineConfig} {localStore : LocalStore V}
    {outbox : OutboxQueue V} {audit : List AuditEntry} (hstored : localStore.Fits)
    {evs : List (CounterEvent V)}
    (hevs : ∀ fault op, .pull fault op ∈ evs → SqlValue.fitsInteger op.lamportTimestamp = true)
    {srv : Server V} (hsrv : srv.localStore.Fits) {ops : List (Option Fault × Operation V)}
    (hops : ∀ ev ∈ ops, SqlValue.fitsInteger ev.2.lamportTimestamp = true) :
    ((∀ n ∈ (Engine.boot nodeId config localStore outbox audit).bindsBy evs,
          SqlValue.fitsInteger n = true) ↔
        Engine.LamportRoom evs ∧ Admitted Engine.count Engine.HasRoom
          (Engine.boot nodeId config localStore outbox audit) evs) ∧
      ((∀ n ∈ srv.bindsBy ops, SqlValue.fitsInteger n = true) ↔
        Admitted Server.count Server.HasRoom srv ops) :=
  ⟨Engine.bindsBy_fit_iff hstored rfl hevs, Server.bindsBy_fit_iff hsrv hops⟩

def sampleWrite : LocalCall ℕ :=
  { opType := .create, collection := "incidents", recordId := "s", opId := "1", now := 6, enqueuedAt := 6 }

/-- An update whose Lamport timestamp is the largest integer. -/
def largestUpdate : Operation ℕ :=
  { ConflictResolver.sampleUpdate "b" 5 with lamportTimestamp := 2 ^ 63 - 1 }

theorem counters_storable_iff_example :
    Engine.LamportRoom [.pull none (ConflictResolver.sampleUpdate "b" 5), .call sampleWrite] ∧
      Admitted Server.count Server.HasRoom (Server.create "hq")
        [(none, ConflictResolver.sampleUpdate "b" 5)] := by
  have hevs : ∀ fault op, CounterEvent.pull fault op ∈
      [CounterEvent.pull none (ConflictResolver.sampleUpdate "b" 5), .call sampleWrite] →
        SqlValue.fitsInteger op.lamportTimestamp = true := by
    intro fault op hmem
    rcases List.mem_cons.1 hmem with he | hmem
    · cases he
      decide
    · cases List.mem_singleton.1 hmem
  have hops : ∀ ev ∈ [((none : Option Fault), ConflictResolver.sampleUpdate "b" 5)],
      SqlValue.fitsInteger ev.2.lamportTimestamp = true := by
    intro ev hmem
    cases List.mem_singleton.1 hmem
    decide
  obtain ⟨hengine, hserver⟩ := @counters_storable_iff ℕ "a" {} LocalStore.empty OutboxQueue.empty []
    LocalStore.fits_empty _ hevs (Server.create "hq") LocalStore.fits_empty _ hops
  exact ⟨(hengine.1 (by decide +kernel)).1, hserver.1 (by decide +kernel)⟩

/-- One accepted operation whose integers fit, and the next local call raises. -/
theorem largest_timestamp_blocks_calls :
    SqlValue.fitsInteger largestUpdate.lamportTimestamp = true ∧
      ((Engine.create "a").pullOne ((Engine.create "a").pullMeets none largestUpdate)
        largestUpdate).2 = none ∧
      (Engine.create "a").bindsBy [.pull none largestUpdate, .call sampleWrite] =
        [2 ^ 63 - 1, 2 ^ 63 + 1] ∧
      (((Engine.create "a").count (.pull none largestUpdate)).callBinding sampleWrite).2 =
        .raised "Python int too large to convert to SQLite INTEGER" ∧
      ¬ ∀ n ∈ (Engine.create "a").bindsBy [.pull none largestUpdate, .call sampleWrite],
          SqlValue.fitsInteger n = true := by
  have hbinds : (Engine.create "a").bindsBy [.pull none largestUpdate, .call sampleWrite] =
      [2 ^ 63 - 1, 2 ^ 63 + 1] := by decide +kernel
  refine ⟨by decide +kernel, by decide +kernel, hbinds, ?_, ?_⟩
  · exact Engine.callBinding_raises (by decide +kernel) [] sampleWrite
  · rw [hbinds]
    decide

end Dhava
