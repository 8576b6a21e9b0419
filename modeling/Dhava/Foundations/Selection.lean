import Mathlib.Data.List.Sort

/-! Cutting a sorted table. A filter commutes with a stable sort, and one that never
accepts behind a rejected element keeps an initial part of the list. -/

namespace Foundations

variable {α : Type*}

section Ordered

variable {r : α → α → Prop} [DecidableRel r]

theorem orderedInsert_of_forall {a : α} {l : List α} (h : ∀ b ∈ l, r a b) :
    l.orderedInsert r a = a :: l := by
  cases l with
  | nil => rfl
  | cons b rest => exact List.orderedInsert_cons_of_le r rest (h b (by simp))

theorem filter_orderedInsert [IsTrans α r] (p : α → Bool) (a : α) {l : List α} (hl : l.Pairwise r) :
    (l.orderedInsert r a).filter p =
      if p a then (l.filter p).orderedInsert r a else l.filter p := by
  induction l with
  | nil => cases hp : p a <;> simp [hp]
  | cons b rest ih =>
    obtain ⟨hb, hrest⟩ := List.pairwise_cons.1 hl
    by_cases hab : r a b
    · have hall : ∀ c ∈ (b :: rest).filter p, r a c := by
        intro c hc
        rcases List.mem_cons.1 (List.mem_of_mem_filter hc) with rfl | hc'
        · exact hab
        · exact IsTrans.trans _ _ _ hab (hb c hc')
      rw [List.orderedInsert_cons_of_le r rest hab, orderedInsert_of_forall hall, List.filter_cons]
    · rw [List.orderedInsert_of_not_le r rest hab, List.filter_cons, List.filter_cons, ih hrest]
      cases p b <;> cases p a <;> simp [hab]

theorem filter_insertionSort [IsTrans α r] [Std.Total r] (p : α → Bool) (l : List α) :
    (l.insertionSort r).filter p = (l.filter p).insertionSort r := by
  induction l with
  | nil => rfl
  | cons a rest ih =>
    rw [List.insertionSort_cons, filter_orderedInsert p a (List.pairwise_insertionSort r rest), ih,
      List.filter_cons]
    cases p a <;> rfl

theorem rel_head_insertionSort [IsTrans α r] [Std.Total r] {a b : α} {l : List α}
    (h : (l.insertionSort r).head? = some a) (hb : b ∈ l) : r a b := by
  obtain ⟨rest, hsort⟩ := List.head?_eq_some_iff.1 h
  have hpair := List.pairwise_insertionSort r l
  rw [hsort, List.pairwise_cons] at hpair
  rw [← List.mem_insertionSort r, hsort, List.mem_cons] at hb
  rcases hb with rfl | hb
  · exact (Std.Total.total b b).elim id id
  · exact hpair.1 b hb

/-- A stable sort puts the first of the least elements in front. -/
theorem head?_insertionSort [IsTrans α r] [Std.Total r] {a : α} {l : List α} :
    (l.insertionSort r).head? = some a ↔
      ∃ before after, l = before ++ a :: after ∧ (∀ b ∈ before, ¬ r b a) ∧ ∀ b ∈ after, r a b := by
  induction l generalizing a with
  | nil => simp
  | cons x rest ih =>
    rw [List.insertionSort_cons]
    have hsplit : (∃ before after, x :: rest = before ++ a :: after ∧
        (∀ b ∈ before, ¬ r b a) ∧ ∀ b ∈ after, r a b) ↔
          (a = x ∧ ∀ b ∈ rest, r x b) ∨ (¬ r x a ∧ (rest.insertionSort r).head? = some a) := by
      rw [ih]
      constructor
      · rintro ⟨before, after, hl, hbefore, hafter⟩
        cases before with
        | nil =>
          obtain ⟨rfl, rfl⟩ := List.cons.inj hl
          exact .inl ⟨rfl, hafter⟩
        | cons y before =>
          obtain ⟨rfl, rfl⟩ := List.cons.inj hl
          rw [List.forall_mem_cons] at hbefore
          exact .inr ⟨hbefore.1, before, after, rfl, hbefore.2, hafter⟩
      · rintro (⟨rfl, hall⟩ | ⟨hxa, before, after, rfl, hbefore, hafter⟩)
        · exact ⟨[], rest, rfl, fun _ h => (List.not_mem_nil h).elim, hall⟩
        · exact ⟨x :: before, after, rfl, List.forall_mem_cons.2 ⟨hxa, hbefore⟩, hafter⟩
    rw [hsplit]
    cases hhead : (rest.insertionSort r).head? with
    | none =>
      have hnil := List.head?_eq_none_iff.1 hhead
      have hrest : rest = [] := by
        rwa [← List.length_eq_zero_iff, List.length_insertionSort, List.length_eq_zero_iff] at hnil
      rw [hnil, hrest]
      simp [eq_comm]
    | some h =>
      obtain ⟨tail, hsort⟩ := List.head?_eq_some_iff.1 hhead
      have hmem : h ∈ rest := by
        rw [← List.mem_insertionSort r, hsort]
        exact List.mem_cons_self ..
      rw [hsort, Option.some.injEq]
      by_cases hxh : r x h
      · rw [List.orderedInsert_cons_of_le r tail hxh, List.head?_cons, Option.some.injEq]
        constructor
        · rintro rfl
          exact .inl ⟨rfl, fun b hb => IsTrans.trans _ _ _ hxh (rel_head_insertionSort hhead hb)⟩
        · rintro (⟨rfl, -⟩ | ⟨hxa, rfl⟩)
          · rfl
          · exact absurd hxh hxa
      · rw [List.orderedInsert_of_not_le r tail hxh, List.head?_cons, Option.some.injEq]
        constructor
        · rintro rfl
          exact .inr ⟨hxh, rfl⟩
        · rintro (⟨rfl, hall⟩ | ⟨-, rfl⟩)
          · exact absurd (hall h hmem) hxh
          · rfl

end Ordered

/-- A filter that accepts everything ahead of what it accepts keeps an initial part. -/
theorem filter_initial {p : α → Bool} {l : List α}
    (h : l.Pairwise fun a b => p b = true → p a = true) : l.filter p <+: l := by
  induction l with
  | nil => exact List.prefix_refl _
  | cons a rest ih =>
    obtain ⟨ha, hrest⟩ := List.pairwise_cons.1 h
    rw [List.filter_cons]
    cases hp : p a with
    | true => exact List.cons_prefix_cons.2 ⟨rfl, ih hrest⟩
    | false =>
      have hnone : rest.filter p = [] := by
        refine List.filter_eq_nil_iff.2 fun b hb hpb => ?_
        rw [ha b hb hpb] at hp
        cases hp
      simp [hnone]

/-- Pages of one size, read one after the other. -/
theorem flatMap_pages (l : List α) (size k : ℕ) :
    ((List.range k).flatMap fun i => (l.drop (i * size)).take size) = l.take (k * size) := by
  induction k with
  | zero => rw [Nat.zero_mul, List.take_zero]; rfl
  | succ k ih =>
    rw [List.range_succ, List.flatMap_append, ih, List.flatMap_singleton, Nat.succ_mul, List.take_add]

theorem take_initial_of_le {l l' : List α} (h : l <+: l') {m n : ℕ} (hmn : m ≤ n) :
    l.take m <+: l'.take n := by
  refine List.prefix_take_iff.2 ⟨(List.take_prefix m l).trans h, ?_⟩
  rw [List.length_take]
  omega

end Foundations
