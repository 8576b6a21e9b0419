import Dhava.Foundations.Run
import Mathlib.Algebra.Order.Group.Int
import Mathlib.Algebra.Order.Group.Unbundled.Basic
import Mathlib.Data.List.Induction
import Mathlib.Order.Lattice

/-! A counter that steps over itself and over each number it is shown. -/

namespace Foundations

/-- One more than the counter and the number shown, if there is one. -/
def climb (c : ℤ) (seen : Option ℤ) : ℤ := max c (seen.getD c) + 1

theorem lt_climb (c : ℤ) (seen : Option ℤ) : c < climb c seen := by
  unfold climb
  omega

theorem climb_lt_iff (c m : ℤ) (seen : Option ℤ) :
    climb c seen < m ↔ c + 1 < m ∧ ∀ n, seen = some n → n + 1 < m := by
  unfold climb
  cases seen with
  | none => simp
  | some n => simp only [Option.getD_some, Option.some.injEq, forall_eq']; omega

/-- Each step has raised the counter at least by one since the start, and since each number
it was shown. One of these bounds is reached. -/
theorem foldl_climb_lt_iff (c m : ℤ) (l : List (Option ℤ)) :
    l.foldl climb c < m ↔
      c + l.length < m ∧
        ∀ earlier n later, l = earlier ++ some n :: later → n + 1 + later.length < m := by
  induction l using List.reverseRecOn generalizing m with
  | nil => simp
  | append_singleton l seen ih =>
    rw [List.foldl_append, List.foldl_cons, List.foldl_nil, climb_lt_iff, ← lt_sub_iff_add_lt, ih,
      List.length_append, List.length_singleton]
    constructor
    · rintro ⟨⟨hlen, hold⟩, hlast⟩
      refine ⟨by omega, fun earlier n later hsplit => ?_⟩
      -- the last number shown is one of those before, or the new one
      rcases concat_eq_split_iff.1 hsplit with ⟨-, hseen, rfl⟩ | ⟨rest, rfl, hl⟩
      · have hn := hlast n hseen
        simpa using hn
      · have hn := hold earlier n rest hl
        rw [List.length_append, List.length_singleton]
        omega
    · rintro ⟨hlen, hall⟩
      refine ⟨⟨by omega, fun earlier n later hsplit => ?_⟩, fun n hseen => ?_⟩
      · have hn := hall earlier n (later ++ [seen]) (by rw [hsplit]; simp)
        rw [List.length_append, List.length_singleton] at hn
        omega
      · have hn := hall l n [] (by rw [hseen])
        simpa using hn

/-- The last value is above the start, and above each number shown on the way. -/
theorem le_foldl_climb (c : ℤ) (l : List (Option ℤ)) : c ≤ l.foldl climb c := by
  have h := ((foldl_climb_lt_iff c (l.foldl climb c + 1) l).1 (Int.lt_succ _)).1
  omega

theorem lt_foldl_climb (c : ℤ) {l : List (Option ℤ)} {n : ℤ} (hn : some n ∈ l) :
    n < l.foldl climb c := by
  obtain ⟨earlier, later, hsplit⟩ := List.append_of_mem hn
  have h := ((foldl_climb_lt_iff c (l.foldl climb c + 1) l).1 (Int.lt_succ _)).2 earlier n later hsplit
  omega

end Foundations
