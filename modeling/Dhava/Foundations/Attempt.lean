import Mathlib.Data.List.Basic

/-! Computations that may raise, one after the other. -/

namespace Foundations

universe u

section Sequence

variable {ε : Type*} {α β : Type u}

theorem bind_eq_ok {x : Except ε α} {f : α → Except ε β} {b : β} :
    x >>= f = .ok b ↔ ∃ a, x = .ok a ∧ f a = .ok b := by
  cases x with
  | error exc =>
    constructor
    · intro h
      cases h
    · rintro ⟨a, ha, -⟩
      cases ha
  | ok a =>
    constructor
    · intro h
      exact ⟨a, rfl, h⟩
    · rintro ⟨a', ha, h⟩
      cases ha
      exact h

/-- A list of results is run through exactly if all of them are there. -/
theorem mapM_id_eq_ok {l : List (Except ε α)} {as : List α} :
    l.mapM id = .ok as ↔ l = as.map Except.ok := by
  induction l generalizing as with
  | nil =>
    rw [List.mapM_nil]
    cases as with
    | nil => exact iff_of_true rfl rfl
    | cons a as => exact iff_of_false (fun h => by cases h) (fun h => by cases h)
  | cons x l ih =>
    rw [List.mapM_cons, bind_eq_ok]
    constructor
    · rintro ⟨a, hx, h⟩
      obtain ⟨rest, hrest, hlist⟩ := bind_eq_ok.1 h
      cases hlist
      exact congrArg₂ List.cons hx (ih.1 hrest)
    · intro h
      cases as with
      | nil => cases h
      | cons a as =>
        obtain ⟨hx, hl⟩ := List.cons.inj h
        exact ⟨a, hx, bind_eq_ok.2 ⟨as, ih.2 hl, rfl⟩⟩

theorem mapM_eq_map {f : α → Except ε β} {g : α → β} {l : List α} (h : ∀ a ∈ l, f a = .ok (g a)) :
    l.mapM f = .ok (l.map g) := by
  induction l with
  | nil => rfl
  | cons a l ih =>
    rw [List.mapM_cons, h a (List.mem_cons_self ..), ih fun b hb => h b (List.mem_cons_of_mem _ hb)]
    rfl

end Sequence

/-! ### With a state that outlives the exception -/

section Guard

variable {ε σ α β : Type u} {x : EStateM ε σ α} {handler : ε → EStateM ε σ α}
  {cleanup : EStateM ε σ PUnit} {s s' s'' t : σ} {a : α}

theorem run_bind_ok (hx : x.run s = .ok a s') (f : α → EStateM ε σ β) :
    (x >>= f).run s = (f a).run s' := by
  rw [EStateM.run] at hx
  simp only [EStateM.run, bind, EStateM.bind, hx]

theorem run_bind_error {exc : ε} (hx : x.run s = .error exc s') (f : α → EStateM ε σ β) :
    (x >>= f).run s = .error exc s' := by
  rw [EStateM.run] at hx
  simp only [EStateM.run, bind, EStateM.bind, hx]

theorem run_guard_ok (hx : x.run s = .ok a s') (hcleanup : cleanup.run s' = .ok ⟨⟩ t) :
    (tryFinally (tryCatch x handler) cleanup).run s = .ok a t := by
  rw [EStateM.run] at hx hcleanup
  simp only [EStateM.run, tryFinally, tryFinally', tryCatch, tryCatchThe, MonadExceptOf.tryCatch,
    EStateM.tryCatch, Functor.map, EStateM.map, hx, hcleanup]

/-- What is raised goes to the handler, in the state it has left. -/
theorem run_guard_error {exc : ε} (hx : x.run s = .error exc s')
    (hhandler : (handler exc).run s' = .ok a s'') (hcleanup : cleanup.run s'' = .ok ⟨⟩ t) :
    (tryFinally (tryCatch x handler) cleanup).run s = .ok a t := by
  -- nothing of the state is taken back
  have hrestored : handler exc (EStateM.Backtrackable.restore (δ := PUnit) s'
      (EStateM.Backtrackable.save s)) = .ok a s'' := hhandler
  rw [EStateM.run] at hx hcleanup
  simp only [EStateM.run, tryFinally, tryFinally', tryCatch, tryCatchThe, MonadExceptOf.tryCatch,
    EStateM.tryCatch, Functor.map, EStateM.map, hx, hrestored, hcleanup]

end Guard
end Foundations
