import Dhava.Foundations.Run
import Mathlib.Data.List.ReduceOption
import Mathlib.Data.List.Sort

/-! A queue that serves in the order of a total preorder, and what ties in the order of its
arrival. A stable sort of the arrivals is such a queue. -/

namespace Foundations

inductive QueueEvent (α : Type*)
  | push (x : α)
  | pop (n : ℕ)

variable {α : Type*} (r : α → α → Prop) [DecidableRel r]

/-- `x` goes behind all that may stand before it. -/
def insertBehind (x : α) (q : List α) : List α :=
  q.takeWhile (fun b => r b x) ++ x :: q.dropWhile (fun b => r b x)

theorem insertBehind_cons (x b : α) (q : List α) :
    insertBehind r x (b :: q) = if r b x then b :: insertBehind r x q else x :: b :: q := by
  unfold insertBehind
  rw [List.takeWhile_cons, List.dropWhile_cons]
  by_cases h : r b x <;> simp [h]

theorem perm_insertBehind (x : α) (q : List α) : (insertBehind r x q).Perm (x :: q) := by
  refine List.perm_middle.trans (List.Perm.cons x ?_)
  rw [List.takeWhile_append_dropWhile]

theorem orderedInsert_insertBehind [IsTrans α r] [Std.Total r] (a x : α) (q : List α) :
    (insertBehind r x q).orderedInsert r a = insertBehind r x (q.orderedInsert r a) := by
  induction q with
  | nil =>
    change [x].orderedInsert r a = insertBehind r x [a]
    rw [insertBehind_cons, List.orderedInsert_cons]
    rfl
  | cons b q ih =>
    rw [insertBehind_cons, List.orderedInsert_cons]
    by_cases hbx : r b x
    · rw [if_pos hbx, List.orderedInsert_cons, ih]
      by_cases hab : r a b
      · rw [if_pos hab, if_pos hab, insertBehind_cons, if_pos (IsTrans.trans a b x hab hbx),
          insertBehind_cons, if_pos hbx]
      · rw [if_neg hab, if_neg hab, insertBehind_cons, if_pos hbx]
    · rw [if_neg hbx, List.orderedInsert_cons, List.orderedInsert_cons]
      by_cases hab : r a b
      · rw [if_pos hab, insertBehind_cons, insertBehind_cons, if_neg hbx]
      · -- what stands before `x` and behind `b` would put `b` before `x`
        have hax : ¬ r a x := fun hax =>
          hbx (IsTrans.trans b a x ((Std.Total.total a b).resolve_left hab) hax)
        rw [if_neg hab, if_neg hax, insertBehind_cons, if_neg hbx]

/-- A stable sort puts a late arrival behind all that may stand before it. -/
theorem insertionSort_concat [IsTrans α r] [Std.Total r] (l : List α) (x : α) :
    (l ++ [x]).insertionSort r = insertBehind r x (l.insertionSort r) := by
  induction l with
  | nil => rfl
  | cons a l ih =>
    rw [List.cons_append, List.insertionSort_cons, List.insertionSort_cons, ih,
      orderedInsert_insertBehind]

/-- Changing the accepted rows of some keys so that they are rejected leaves the rows of the
other keys. -/
theorem filter_map_ite {p : α → Bool} {c : α → Bool} {f : α → α} (l : List α)
    (hf : ∀ a ∈ l, c a = true → p (f a) = false) :
    (l.map fun a => if c a then f a else a).filter p = (l.filter p).filter fun a => !c a := by
  induction l with
  | nil => rfl
  | cons a l ih =>
    have hrest := ih fun b hb => hf b (List.mem_cons_of_mem _ hb)
    rw [List.map_cons, List.filter_cons, List.filter_cons, hrest]
    have ha := hf a List.mem_cons_self
    cases hc : c a <;> cases hp : p a <;> simp [hc, hp, ha]

/-- Striking out the keys of a front part of the queue leaves what is behind it. -/
theorem filter_not_mem_take {κ : Type*} [DecidableEq κ] {key : α → κ} {l : List α}
    (hl : (l.map key).Nodup) (k : ℕ) :
    (l.filter fun a => !decide (key a ∈ (l.take k).map key)) = l.drop k := by
  have hsplit := List.take_append_drop k l
  rw [← hsplit, List.map_append, List.nodup_append] at hl
  conv_lhs => rw [← hsplit, List.filter_append, hsplit]
  have hfront : ((l.take k).filter fun a => !decide (key a ∈ (l.take k).map key)) = [] :=
    List.filter_eq_nil_iff.2 fun a ha => by
      rw [decide_eq_true (List.mem_map_of_mem ha)]
      exact Bool.false_ne_true
  have hback : ((l.drop k).filter fun a => !decide (key a ∈ (l.take k).map key)) = l.drop k := by
    refine List.filter_eq_self.2 fun a ha => ?_
    have hnot : key a ∉ (l.take k).map key := fun h => hl.2.2 _ h _ (List.mem_map_of_mem ha) rfl
    rw [decide_eq_false hnot]
    rfl
  rw [hfront, hback, List.nil_append]

/-- Where the accepted elements stand in front, cutting off the front cuts off as many of them. -/
theorem filter_drop_of_initial {p : α → Bool} {l : List α}
    (h : l.Pairwise fun a b => p b = true → p a = true) (k : ℕ) :
    (l.drop k).filter p = (l.filter p).drop k := by
  induction l generalizing k with
  | nil => rw [List.drop_nil, List.filter_nil, List.drop_nil]
  | cons a rest ih =>
    obtain ⟨ha, hrest⟩ := List.pairwise_cons.1 h
    cases k with
    | zero => rfl
    | succ k =>
      rw [List.drop_succ_cons, ih hrest, List.filter_cons]
      cases hp : p a with
      | true => rfl
      | false =>
        have hnone : rest.filter p = [] := by
          refine List.filter_eq_nil_iff.2 fun b hb hpb => ?_
          rw [ha b hb hpb] at hp
          cases hp
        rw [hnone, if_neg Bool.false_ne_true, List.drop_nil, List.drop_nil]

namespace QueueEvent

def step (q : List α) : QueueEvent α → List α
  | push x => insertBehind r x q
  | pop n => q.drop n

/-- What an event takes out of the queue. -/
def served (q : List α) : QueueEvent α → List α
  | push _ => []
  | pop n => q.take n

def pushed : QueueEvent α → Option α
  | push x => some x
  | pop _ => none

/-- Nothing is lost and nothing is served twice. -/
theorem perm_served (q : List α) (evs : List (QueueEvent α)) :
    ((outputs (step r) served q evs).flatten ++ replay (step r) q evs).Perm
      (q ++ evs.filterMap pushed) := by
  induction evs generalizing q with
  | nil => simp [outputs, replay]
  | cons ev rest ih =>
    change (served q ev ++ (outputs (step r) served (step r q ev) rest).flatten ++
      replay (step r) (step r q ev) rest).Perm _
    rw [List.append_assoc]
    refine ((ih (step r q ev)).append_left _).trans ?_
    cases ev with
    | push x =>
      refine ((perm_insertBehind r x q).append_right _).trans ?_
      exact List.perm_middle.symm
    | pop n =>
      change (q.take n ++ (q.drop n ++ rest.filterMap pushed)).Perm (q ++ rest.filterMap pushed)
      rw [← List.append_assoc, List.take_append_drop]

end QueueEvent
end Foundations
