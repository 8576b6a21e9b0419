import Mathlib.Data.List.Chain
import Mathlib.Data.List.Induction
import Mathlib.Data.List.Lattice
import Mathlib.Data.List.Nodup
import Mathlib.Data.List.Perm.Basic

/-! A title contested in sequence: whoever comes next takes the title by beating its
holder. When does the order of the challengers not matter? -/

namespace Foundations

variable {α : Type*} (beats : α → α → Prop) [DecidableRel beats]

def challenge : Option α → α → Option α
  | none, x => some x
  | some c, x => if beats x c then some x else some c

/-- The title holder after all of `l`. -/
def champion (l : List α) : Option α := l.foldl (challenge beats) none

variable {beats}

/-- Whoever wins, the title is held after a challenge. -/
theorem challenge_isSome (held : Option α) (x : α) : ∃ w, challenge beats held x = some w := by
  cases held with
  | none => exact ⟨x, rfl⟩
  | some c => by_cases hx : beats x c <;> simp [challenge, hx]

theorem champion_concat (l : List α) (x : α) :
    champion beats (l ++ [x]) = challenge beats (champion beats l) x := by
  simp [champion]

theorem champion_mem {l : List α} {c : α} (h : champion beats l = some c) : c ∈ l := by
  induction l using List.reverseRecOn generalizing c with
  | nil => simp [champion] at h
  | append_singleton l x ih =>
    rw [champion_concat] at h
    cases hl : champion beats l with
    | none =>
      rw [hl] at h
      obtain rfl := Option.some.inj h
      simp
    | some d =>
      rw [hl, challenge] at h
      split_ifs at h
      · obtain rfl := Option.some.inj h
        simp
      · obtain rfl := Option.some.inj h
        exact List.mem_append_left _ (ih hl)

theorem champion_isSome {l : List α} (h : l ≠ []) : ∃ c, champion beats l = some c := by
  induction l using List.reverseRecOn with
  | nil => exact absurd rfl h
  | append_singleton l x _ =>
    rw [champion_concat]
    exact challenge_isSome _ x

/-- Who beats everyone else, and is beaten by nobody, ends up with the title. -/
theorem champion_eq_of_beats_all {l : List α} {w : α} (hw : w ∈ l)
    (hwin : ∀ x ∈ l, x ≠ w → beats w x) (hlose : ∀ x ∈ l, x ≠ w → ¬ beats x w) :
    champion beats l = some w := by
  induction l using List.reverseRecOn with
  | nil => simp at hw
  | append_singleton l x ih =>
    rw [champion_concat]
    by_cases hwl : w ∈ l
    · rw [ih hwl (fun y hy => hwin y (List.mem_append_left _ hy))
        (fun y hy => hlose y (List.mem_append_left _ hy)), challenge]
      by_cases hx : x = w
      · subst hx; split_ifs <;> rfl
      · rw [if_neg (hlose x (by simp) hx)]
    · obtain rfl : w = x := by simpa [hwl] using hw
      cases hl : champion beats l with
      | none => rfl
      | some d =>
        have hd := champion_mem hl
        have hdw : d ≠ w := fun h => hwl (h ▸ hd)
        rw [challenge, if_pos (hwin d (List.mem_append_left _ hd) hdw)]

/-- Where exactly one of two beats the other, it does not matter who holds the title. -/
theorem challenge_comm {x y : α} (h : beats x y ↔ ¬ beats y x) :
    challenge beats (some x) y = challenge beats (some y) x := by
  by_cases hxy : beats x y
  · rw [challenge, challenge, if_neg (h.1 hxy), if_pos hxy]
  · rw [challenge, challenge, if_pos (not_not.1 fun hyx => hxy (h.2 hyx)), if_neg hxy]

/-- Among challengers ordered in a line the champion has beaten everyone else. -/
theorem champion_beats_all {l : List α} (htrans : ∀ x y z, beats x y → beats y z → beats x z)
    (htot : ∀ x ∈ l, ∀ y ∈ l, x = y ∨ beats x y ∨ beats y x) {c : α}
    (h : champion beats l = some c) : ∀ x ∈ l, x = c ∨ beats c x := by
  induction l using List.reverseRecOn generalizing c with
  | nil => simp [champion] at h
  | append_singleton l y ih =>
    rw [champion_concat] at h
    cases hl : champion beats l with
    | none =>
      rw [hl] at h
      obtain rfl := Option.some.inj h
      have hnil : l = [] := by
        by_contra hne
        obtain ⟨d, hd⟩ : ∃ d, champion beats l = some d := champion_isSome hne
        simp [hl] at hd
      simp [hnil]
    | some d =>
      have hd := ih (fun x hx z hz => htot x (by simp [hx]) z (by simp [hz])) hl
      have hdl := champion_mem hl
      rw [hl, challenge] at h
      intro x hx
      split_ifs at h with hy
      · obtain rfl := Option.some.inj h
        rcases List.mem_append.1 hx with hxl | hxy
        · rcases hd x hxl with rfl | hdx
          · exact Or.inr hy
          · exact Or.inr (htrans _ _ _ hy hdx)
        · exact Or.inl (List.mem_singleton.1 hxy)
      · obtain rfl := Option.some.inj h
        rcases List.mem_append.1 hx with hxl | hxy
        · exact hd x hxl
        · obtain rfl := List.mem_singleton.1 hxy
          rcases htot x (by simp) d (by simp [hdl]) with he | hbeat | hbeat
          · exact Or.inl he
          · exact absurd hbeat hy
          · exact Or.inr hbeat

/-! ### Who has held the title -/

variable (beats) in
/-- The holders so far, with the challenger if it takes the title. -/
def succeed (past : List α) (x : α) : List α :=
  match past.getLast? with
  | none => [x]
  | some c => if beats x c then past ++ [x] else past

variable (beats) in
/-- The title holders in their order, after all of `l`. -/
def reigns (l : List α) : List α := l.foldl (succeed beats) []

theorem reigns_concat (l : List α) (x : α) :
    reigns beats (l ++ [x]) = succeed beats (reigns beats l) x := by
  rw [reigns, List.foldl_concat]
  rfl

theorem getLast?_succeed (past : List α) (x : α) :
    (succeed beats past x).getLast? = challenge beats past.getLast? x := by
  unfold succeed challenge
  cases h : past.getLast? with
  | none => rfl
  | some c =>
    simp only
    split_ifs
    · exact List.getLast?_concat
    · exact h

/-- The last of them is the champion. -/
theorem getLast?_reigns (l : List α) : (reigns beats l).getLast? = champion beats l := by
  induction l using List.reverseRecOn with
  | nil => rfl
  | append_singleton l x ih => rw [reigns_concat, getLast?_succeed, champion_concat, ih]

variable (beats) in
theorem succeed_cases (past : List α) (x : α) :
    succeed beats past x = past ++ [x] ∧ (∀ c ∈ past.getLast?, beats x c) ∨
      succeed beats past x = past ∧ ∃ c ∈ past.getLast?, ¬ beats x c := by
  unfold succeed
  cases h : past.getLast? with
  | none =>
    rw [List.getLast?_eq_none_iff.1 h]
    exact Or.inl ⟨rfl, fun c hc => by cases hc⟩
  | some c =>
    simp only
    split_ifs with hx
    · refine Or.inl ⟨rfl, fun d hd => ?_⟩
      obtain rfl := Option.some.inj hd
      exact hx
    · exact Or.inr ⟨rfl, c, rfl, hx⟩

theorem prefix_succeed (past : List α) (x : α) : past <+: succeed beats past x := by
  rcases succeed_cases beats past x with ⟨h, -⟩ | ⟨h, -⟩
  · exact ⟨[x], h.symm⟩
  · exact ⟨[], by rw [h, List.append_nil]⟩

variable (beats) in
/-- Nobody who has held the title is forgotten. -/
theorem reigns_prefix (l m : List α) : reigns beats l <+: reigns beats (l ++ m) := by
  induction m using List.reverseRecOn with
  | nil => exact ⟨[], by rw [List.append_nil, List.append_nil]⟩
  | append_singleton m x ih =>
    rw [← List.append_assoc, reigns_concat]
    exact ih.trans (prefix_succeed _ x)

/-- They are among the challengers, in the same order. -/
theorem reigns_sublist (l : List α) : (reigns beats l).Sublist l := by
  induction l using List.reverseRecOn with
  | nil => exact List.Sublist.refl _
  | append_singleton l x ih =>
    rw [reigns_concat]
    rcases succeed_cases beats (reigns beats l) x with ⟨h, -⟩ | ⟨h, -⟩
    · rw [h]
      exact ih.append (List.Sublist.refl _)
    · rw [h]
      exact ih.trans (List.sublist_append_left _ _)

/-- Each has taken the title from the one before. -/
theorem isChain_reigns (l : List α) : (reigns beats l).IsChain fun a b => beats b a := by
  induction l using List.reverseRecOn with
  | nil => exact List.isChain_nil
  | append_singleton l x ih =>
    rw [reigns_concat]
    rcases succeed_cases beats (reigns beats l) x with ⟨h, hbeats⟩ | ⟨h, -⟩
    · rw [h, List.isChain_append]
      refine ⟨ih, List.isChain_singleton _, fun c hc y hy => ?_⟩
      obtain rfl := Option.some.inj hy
      exact hbeats c hc
    · rw [h]
      exact ih

/-- Whoever comes takes the title next, or fails against the holder of the moment. -/
theorem reigns_next (done : List α) (x : α) (rest : List α) :
    reigns beats done ++ [x] <+: reigns beats (done ++ x :: rest) ∨
      ∃ c ∈ (reigns beats done).getLast?, ¬ beats x c := by
  have hprefix := reigns_prefix beats (done ++ [x]) rest
  rw [reigns_concat, List.append_assoc, List.singleton_append] at hprefix
  rcases succeed_cases beats (reigns beats done) x with ⟨h, -⟩ | ⟨-, hlost⟩
  · rw [h] at hprefix
    exact Or.inl hprefix
  · exact Or.inr hlost

/-! ### When the order is irrelevant -/

/-- The order of the challengers is irrelevant exactly when somebody beats all others. -/
theorem champion_perm_iff {l : List α} (hnd : l.Nodup)
    (htot : ∀ x ∈ l, ∀ y ∈ l, x ≠ y → (beats x y ↔ ¬ beats y x)) :
    (∀ l₁ l₂, l₁.Perm l → l₂.Perm l → champion beats l₁ = champion beats l₂) ↔
      l = [] ∨ ∃ w ∈ l, ∀ x ∈ l, x ≠ w → beats w x := by
  classical
  constructor
  · intro h
    rcases eq_or_ne l [] with rfl | hne
    · exact Or.inl rfl
    obtain ⟨w, hw⟩ : ∃ w, champion beats l = some w := champion_isSome hne
    have hwl := champion_mem hw
    refine Or.inr ⟨w, hwl, fun x hx hxw => ?_⟩
    by_contra hbeat
    -- call `x` last and `w` just before it: then `w` cannot keep the title
    have hbx : beats x w := (htot x hx w hwl hxw).2 hbeat
    have hxe : x ∈ l.erase w := (List.mem_erase_of_ne hxw).2 hx
    have hperm : (((l.erase w).erase x ++ [w]) ++ [x]).Perm l := by
      refine (List.perm_append_singleton _ _).trans ?_
      refine ((List.perm_append_singleton _ _).cons x).trans ?_
      refine (List.Perm.swap w x _).trans ?_
      exact ((List.perm_cons_erase hxe).symm.cons w).trans (List.perm_cons_erase hwl).symm
    have hlast := (h _ _ hperm (List.Perm.refl l)).trans hw
    rw [champion_concat, champion_concat] at hlast
    have hrest : w ∉ (l.erase w).erase x := fun hm =>
      (List.Nodup.not_mem_erase hnd) (List.mem_of_mem_erase hm)
    cases hr : champion beats ((l.erase w).erase x) with
    | none =>
      rw [hr] at hlast
      simp only [challenge, if_pos hbx, Option.some.injEq] at hlast
      exact hxw hlast
    | some d =>
      have hdw : d ≠ w := by
        rintro rfl
        exact hrest (champion_mem hr)
      rw [hr] at hlast
      by_cases hwd : beats w d
      · simp only [challenge, if_pos hwd, if_pos hbx, Option.some.injEq] at hlast
        exact hxw hlast
      · rw [challenge, if_neg hwd, challenge] at hlast
        split_ifs at hlast
        · exact hxw (Option.some.inj hlast)
        · exact hdw (Option.some.inj hlast)
  · rintro (rfl | ⟨w, hw, hwin⟩) l₁ l₂ h₁ h₂
    · rw [List.perm_nil.1 h₁, List.perm_nil.1 h₂]
    · have hall : ∀ l', l'.Perm l → champion beats l' = some w := by
        intro l' hp
        refine champion_eq_of_beats_all (hp.mem_iff.2 hw)
          (fun x hx => hwin x (hp.mem_iff.1 hx)) fun x hx hxw => ?_
        exact (htot w hw x (hp.mem_iff.1 hx) (Ne.symm hxw)).1 (hwin x (hp.mem_iff.1 hx) hxw)
      rw [hall l₁ h₁, hall l₂ h₂]

end Foundations
