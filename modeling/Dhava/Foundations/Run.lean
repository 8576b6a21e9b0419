import Mathlib.Data.List.Basic
import Mathlib.Data.List.Induction
import Mathlib.Data.List.Infix
import Mathlib.Order.Basic

/-! Runs of a deterministic machine. An event carries every input of its step, so a
run is the list of its events, and `ok` says which events a state admits. -/

namespace Foundations

variable {σ α : Type*} (step : σ → α → σ)

/-- The state after `evs`, whether or not every event was admitted. -/
def replay (s : σ) (evs : List α) : σ := evs.foldl step s

/-- Every event of `evs` is admitted in the state it meets. -/
def Admitted (ok : σ → α → Prop) : σ → List α → Prop
  | _, [] => True
  | s, a :: rest => ok s a ∧ Admitted ok (step s a) rest

instance Admitted.decidable (ok : σ → α → Prop) [∀ s a, Decidable (ok s a)] :
    ∀ (evs : List α) (s : σ), Decidable (Admitted step ok s evs)
  | [], _ => isTrue trivial
  | a :: rest, s => by
    have := Admitted.decidable ok rest (step s a)
    exact inferInstanceAs (Decidable (ok s a ∧ Admitted step ok (step s a) rest))

variable {step} {ok : σ → α → Prop} {s₀ : σ} {evs evs' : List α}

theorem replay_append (evs evs' : List α) :
    replay step s₀ (evs ++ evs') = replay step (replay step s₀ evs) evs' := List.foldl_append

theorem replay_concat (evs : List α) (a : α) :
    replay step s₀ (evs ++ [a]) = step (replay step s₀ evs) a := replay_append evs [a]

theorem admitted_append (evs evs' : List α) :
    Admitted step ok s₀ (evs ++ evs') ↔
      Admitted step ok s₀ evs ∧ Admitted step ok (replay step s₀ evs) evs' := by
  induction evs generalizing s₀ with
  | nil => exact (and_iff_right trivial).symm
  | cons b rest ih =>
    rw [List.cons_append, Admitted, Admitted, ih, and_assoc]
    rfl

theorem admitted_concat (evs : List α) (a : α) :
    Admitted step ok s₀ (evs ++ [a]) ↔
      Admitted step ok s₀ evs ∧ ok (replay step s₀ evs) a :=
  (admitted_append evs [a]).trans (and_congr_right fun _ => and_iff_left trivial)

theorem admitted_true (s₀ : σ) (evs : List α) : Admitted step (fun _ _ => True) s₀ evs := by
  induction evs generalizing s₀ with
  | nil => exact trivial
  | cons a rest ih => exact ⟨trivial, ih _⟩

theorem Admitted.of_prefix (h : Admitted step ok s₀ evs) (hpre : evs' <+: evs) :
    Admitted step ok s₀ evs' := by
  induction evs' generalizing s₀ evs with
  | nil => exact trivial
  | cons a rest ih =>
    obtain ⟨post, rfl⟩ := hpre
    exact ⟨h.1, ih h.2 (List.prefix_append rest post)⟩

theorem admitted_and (ok ok' : σ → α → Prop) (s : σ) (evs : List α) :
    Admitted step (fun s a => ok s a ∧ ok' s a) s evs ↔
      Admitted step ok s evs ∧ Admitted step ok' s evs := by
  induction evs generalizing s with
  | nil => exact (and_iff_left trivial).symm
  | cons a rest ih =>
    unfold Admitted
    rw [ih, and_and_and_comm]

/-- An event of a run with one more event is the last one, or one of the run. -/
theorem concat_eq_split_iff {x a : α} {before after : List α} :
    evs ++ [x] = before ++ a :: after ↔
      (evs = before ∧ x = a ∧ after = []) ∨
        ∃ rest, after = rest ++ [x] ∧ evs = before ++ a :: rest := by
  constructor
  · intro h
    rcases List.eq_nil_or_concat' after with rfl | ⟨rest, y, rfl⟩
    · obtain ⟨hevs, hx⟩ := List.append_inj' h rfl
      exact Or.inl ⟨hevs, List.singleton_inj.1 hx, rfl⟩
    · rw [← List.cons_append, ← List.append_assoc] at h
      obtain ⟨hevs, hx⟩ := List.append_inj' h rfl
      exact Or.inr ⟨rest, by rw [hx], hevs⟩
  · rintro (⟨rfl, rfl, rfl⟩ | ⟨rest, rfl, rfl⟩)
    · rfl
    · simp only [List.append_assoc, List.cons_append]

/-- A run is admitted if each of its events is, in the state the events before it leave. -/
theorem admitted_iff_split :
    Admitted step ok s₀ evs ↔
      ∀ before a after, evs = before ++ a :: after → ok (replay step s₀ before) a := by
  constructor
  · rintro h before a after rfl
    exact ((admitted_append before (a :: after)).1 h).2.1
  · intro h
    induction evs generalizing s₀ with
    | nil => exact trivial
    | cons a rest ih =>
      refine ⟨h [] a rest rfl, ih fun before b after hsplit => ?_⟩
      exact h (a :: before) b after (congrArg (a :: ·) hsplit)

/-- What the events of the run keep may be used to say which of them are admitted. -/
theorem admitted_congr {I : σ → Prop} {ok' : σ → α → Prop} (h0 : I s₀)
    (hkeep : ∀ s, ∀ a ∈ evs, I s → I (step s a))
    (hok : ∀ s, ∀ a ∈ evs, I s → (ok s a ↔ ok' s a)) :
    Admitted step ok s₀ evs ↔ Admitted step ok' s₀ evs := by
  induction evs generalizing s₀ with
  | nil => exact Iff.rfl
  | cons a rest ih =>
    have hmem := List.mem_cons_self (a := a) (l := rest)
    refine and_congr (hok s₀ a hmem h0) (ih (hkeep s₀ a hmem h0) ?_ ?_)
    · exact fun s b hb => hkeep s b (List.mem_cons_of_mem _ hb)
    · exact fun s b hb => hok s b (List.mem_cons_of_mem _ hb)

/-- The induction rule for runs: what holds at the start and survives every admitted
step holds at the end. -/
theorem Admitted.invariant {P : σ → Prop} (h : Admitted step ok s₀ evs) (h0 : P s₀)
    (hstep : ∀ s a, P s → ok s a → P (step s a)) : P (replay step s₀ evs) := by
  induction evs generalizing s₀ with
  | nil => exact h0
  | cons a rest ih => exact ih h.2 (hstep _ _ h0 h.1)

/-- What every step keeps holds at the end of every run. -/
theorem replay_invariant {P : σ → Prop} (h0 : P s₀) (hstep : ∀ s a, P s → P (step s a))
    (evs : List α) : P (replay step s₀ evs) :=
  (admitted_true s₀ evs).invariant h0 fun s a h _ => hstep s a h

/-- What never goes down in a step never goes down in a run. -/
theorem le_replay {β : Type*} [Preorder β] (rank : σ → β)
    (hstep : ∀ s a, rank s ≤ rank (step s a)) (s : σ) (evs : List α) :
    rank s ≤ rank (replay step s evs) := by
  induction evs generalizing s with
  | nil => exact le_refl (rank s)
  | cons a rest ih => exact (hstep s a).trans (ih (step s a))

/-- A run whose steps each idle or climb is back at its start exactly if every step idles there. -/
theorem replay_eq_self_iff {β : Type*} [Preorder β] (rank : σ → β)
    (hstep : ∀ s a, step s a = s ∨ rank s < rank (step s a)) (s : σ) (evs : List α) :
    replay step s evs = s ↔ ∀ a ∈ evs, step s a = s := by
  have hle : ∀ s a, rank s ≤ rank (step s a) := by
    intro s a
    rcases hstep s a with h | h
    · rw [h]
    · exact h.le
  induction evs with
  | nil => simp [replay]
  | cons a rest ih =>
    change replay step (step s a) rest = s ↔ _
    rw [List.forall_mem_cons]
    rcases hstep s a with h | hlt
    · rw [h]
      exact ih.trans (and_iff_right rfl).symm
    · have hne : step s a ≠ s := fun h => lt_irrefl _ (h ▸ hlt)
      constructor
      · intro h
        have hrest := le_replay rank hle (step s a) rest
        rw [h] at hrest
        exact absurd hrest hlt.not_ge
      · intro h
        exact absurd h.1 hne

/-- When keeping `P` and meeting `cond` are the same thing at every single step, `P` holds
throughout exactly when all the steps meet `cond`. -/
theorem always_iff_admitted {P : σ → Prop} {cond : σ → α → Prop} (h0 : P s₀)
    (hstep : ∀ evs a, Admitted step ok s₀ (evs ++ [a]) → Admitted step cond s₀ evs →
      P (replay step s₀ evs) →
      (P (step (replay step s₀ evs) a) ↔ cond (replay step s₀ evs) a))
    (hok : Admitted step ok s₀ evs) :
    (∀ evs', evs' <+: evs → P (replay step s₀ evs')) ↔ Admitted step cond s₀ evs := by
  induction evs using List.reverseRecOn with
  | nil =>
    refine ⟨fun _ => trivial, fun _ evs' hp => ?_⟩
    rw [List.prefix_nil.1 hp]
    exact h0
  | append_singleton evs a ih =>
    have hevs := ((admitted_concat evs a).1 hok).1
    rw [admitted_concat, ← ih hevs]
    constructor
    · intro h
      have hpre := fun evs' (hp : evs' <+: evs) => h evs' (hp.trans (List.prefix_append _ _))
      have hlast := h _ (List.prefix_refl _)
      rw [replay_concat] at hlast
      exact ⟨hpre, (hstep evs a hok ((ih hevs).1 hpre) (hpre evs (List.prefix_refl _))).1 hlast⟩
    · rintro ⟨hpre, hcond⟩ evs' hp
      rcases List.prefix_concat_iff.1 hp with rfl | hp'
      · rw [replay_concat]
        exact (hstep evs a hok ((ih hevs).1 hpre) (hpre evs (List.prefix_refl _))).2 hcond
      · exact hpre evs' hp'

/-- What the steps of a run put out, one after the other. -/
def outputs {β : Type*} (step : σ → α → σ) (out : σ → α → β) : σ → List α → List β
  | _, [] => []
  | s, a :: rest => out s a :: outputs step out (step s a) rest

/-- Each step puts out what it does in the state that the steps before it have left. -/
theorem outputs_eq_map {β : Type*} (out : σ → α → β) (s : σ) (evs : List α) :
    outputs step out s evs =
      (List.finRange evs.length).map fun (i : Fin _) =>
        out (replay step s (evs.take i)) (evs.get i) := by
  induction evs generalizing s with
  | nil => rfl
  | cons a rest ih =>
    have hrange : List.finRange (a :: rest).length =
        (0 : Fin (rest.length + 1)) :: (List.finRange rest.length).map Fin.succ := List.finRange_succ
    rw [outputs, ih, hrange, List.map_cons, List.map_map]
    rfl

theorem outputs_concat {β : Type*} (out : σ → α → β) (s : σ) (evs : List α) (a : α) :
    outputs step out s (evs ++ [a]) = outputs step out s evs ++ [out (replay step s evs) a] := by
  induction evs generalizing s with
  | nil => rfl
  | cons b rest ih => exact congrArg (out s b :: ·) (ih (step s b))

theorem forall_mem_outputs_iff {β : Type*} (out : σ → α → β) (Q : β → Prop) (s : σ)
    (evs : List α) :
    (∀ b ∈ outputs step out s evs, Q b) ↔ Admitted step (fun s a => Q (out s a)) s evs := by
  induction evs generalizing s with
  | nil => exact iff_of_true (fun _ h => by cases h) trivial
  | cons a rest ih => rw [outputs, List.forall_mem_cons, ih, Admitted]

/-- A machine that moves with another on the events `f` translates, and stands still for it on
the others, stays with it and puts out the same. -/
theorem replay_filterMap {τ β γ : Type*} {step' : τ → β → τ} {out : σ → α → Option γ}
    {out' : τ → β → Option γ} {f : α → Option β} {R : σ → τ → Prop}
    (hmove : ∀ s t a b, R s t → f a = some b → R (step s a) (step' t b) ∧ out s a = out' t b)
    (hidle : ∀ s t a, R s t → f a = none → R (step s a) t ∧ out s a = none)
    {s : σ} {t : τ} (h : R s t) (evs : List α) :
    R (replay step s evs) (replay step' t (evs.filterMap f)) ∧
      (outputs step out s evs).reduceOption =
        (outputs step' out' t (evs.filterMap f)).reduceOption := by
  induction evs generalizing s t with
  | nil => exact ⟨h, rfl⟩
  | cons a rest ih =>
    cases hf : f a with
    | none =>
      obtain ⟨hrel, hout⟩ := hidle s t a h hf
      rw [List.filterMap_cons_none hf, outputs, hout]
      exact ih hrel
    | some b =>
      obtain ⟨hrel, hout⟩ := hmove s t a b h hf
      obtain ⟨hend, houts⟩ := ih hrel
      rw [List.filterMap_cons_some hf, outputs, outputs, hout]
      refine ⟨hend, ?_⟩
      cases out' t b with
      | none => exact houts
      | some c => exact congrArg (c :: ·) houts

/-- A log to which some of the positions add one entry each. -/
theorem flatten_map_ite {ι β : Type*} (l : List ι) (c : ι → Bool) (f : ι → β) :
    (l.map fun i => if c i then [f i] else []).flatten = (l.filter c).map f := by
  induction l with
  | nil => rfl
  | cons i rest ih =>
    rw [List.map_cons, List.flatten_cons, ih]
    cases hc : c i <;> simp [hc]

/-! ### Deleting events

A watcher reads the events of a run and says which of them to keep. -/

section Deletion

variable {β κ : Type*} (watch : κ → α → κ) (keep : κ → α → Bool)

def mask : κ → List α → List Bool
  | _, [] => []
  | k, a :: rest => keep k a :: mask (watch k a) rest

def select : List Bool → List β → List β
  | true :: m, b :: rest => b :: select m rest
  | false :: m, _ :: rest => select m rest
  | _, _ => []

variable {out : σ → α → β} {watch keep}

/-- If every deleted step would have idled, deleting them changes neither the end of the
run nor what the other steps put out. `I` is what the watcher knows about the state. -/
theorem replay_select {I : κ → σ → Prop} {evs : List α}
    (hkeep : ∀ k s, ∀ a ∈ evs, I k s → keep k a = true → I (watch k a) (step s a))
    (hdrop : ∀ k s, ∀ a ∈ evs, I k s → keep k a = false → step s a = s ∧ I (watch k a) s)
    {k : κ} {s : σ} (h : I k s) :
    replay step s (select (mask watch keep k evs) evs) = replay step s evs ∧
      outputs step out s (select (mask watch keep k evs) evs) =
        select (mask watch keep k evs) (outputs step out s evs) := by
  induction evs generalizing k s with
  | nil => exact ⟨rfl, rfl⟩
  | cons a rest ih =>
    have hmem := List.mem_cons_self (a := a) (l := rest)
    have hrest := @ih (fun k s b hb => hkeep k s b (List.mem_cons_of_mem _ hb))
      (fun k s b hb => hdrop k s b (List.mem_cons_of_mem _ hb))
    unfold mask
    cases hk : keep k a with
    | true =>
      obtain ⟨hend, hout⟩ := hrest (hkeep k s a hmem h hk)
      exact ⟨hend, congrArg (out s a :: ·) hout⟩
    | false =>
      obtain ⟨hidle, hI⟩ := hdrop k s a hmem h hk
      obtain ⟨hend, hout⟩ := hrest hI
      refine ⟨hend.trans (congrArg (replay step · rest) hidle.symm), hout.trans ?_⟩
      exact congrArg (fun t => select (mask watch keep (watch k a) rest) (outputs step out t rest))
        hidle.symm

end Deletion
end Foundations
