import Mathlib.Data.List.Basic
import Mathlib.Data.List.Infix

/-! Codes that say where they end, and streams of them. A decoder takes one code word off
the front of its input and hands back the rest. -/

namespace Foundations

variable {α β ε ε' : Type*} {encode : α → Except ε (List β)}
  {decode : List β → Except ε' (α × List β)}

/-- The decoder accepts the code words, with anything behind them, and nothing else. -/
structure SelfDelimiting (encode : α → Except ε (List β))
    (decode : List β → Except ε' (α × List β)) : Prop where
  exact : ∀ d a r, decode d = .ok (a, r) ↔ ∃ w, encode a = .ok w ∧ d = w ++ r
  nonempty : ∀ a w, encode a = .ok w → w ≠ []

/-- No word starts `d`. -/
def Unstarted (encode : α → Except ε (List β)) (d : List β) : Prop :=
  ∀ a w r, encode a = .ok w → d ≠ w ++ r

/-- Decode until the decoder raises: what was decoded, and what is left. -/
def drain (decode : List β → Except ε' (α × List β))
    (hshort : ∀ d a r, decode d = .ok (a, r) → r.length < d.length) (d : List β) :
    List α × List β :=
  match h : decode d with
  | .error _ => ([], d)
  | .ok (a, r) =>
    have := hshort d a r h
    let rest := drain decode hshort r
    (a :: rest.1, rest.2)
termination_by d.length

section Drain

variable (hshort : ∀ d a r, decode d = .ok (a, r) → r.length < d.length) {d : List β}

theorem drain_error {exc : ε'} (h : decode d = .error exc) : drain decode hshort d = ([], d) := by
  unfold drain
  split
  · rfl
  · rename_i hok
    rw [h] at hok
    cases hok

theorem drain_ok {a : α} {r : List β} (h : decode d = .ok (a, r)) :
    drain decode hshort d = (a :: (drain decode hshort r).1, (drain decode hshort r).2) := by
  rw [drain]
  split
  · rename_i herr
    rw [h] at herr
    cases herr
  · rename_i hok
    rw [h] at hok
    cases hok
    rfl

end Drain

namespace SelfDelimiting

theorem shorter (hc : SelfDelimiting encode decode) {d : List β} {a : α} {r : List β}
    (h : decode d = .ok (a, r)) : r.length < d.length := by
  obtain ⟨w, hw, rfl⟩ := (hc.exact d a r).1 h
  have hpos := List.length_pos_of_ne_nil (hc.nonempty a w hw)
  rw [List.length_append]
  omega

theorem error_iff (hc : SelfDelimiting encode decode) (d : List β) :
    (∃ exc, decode d = .error exc) ↔ Unstarted encode d := by
  cases h : decode d with
  | error exc =>
    refine iff_of_true ⟨exc, rfl⟩ fun a w r hw hd => ?_
    rw [(hc.exact d a r).2 ⟨w, hw, hd⟩] at h
    cases h
  | ok ar =>
    obtain ⟨w, hw, hd⟩ := (hc.exact d ar.1 ar.2).1 h
    exact iff_of_false (fun ⟨_, he⟩ => by cases he) fun hno => hno ar.1 w ar.2 hw hd

/-- A word cut short does not decode. -/
theorem rejects_initial (hc : SelfDelimiting encode decode) {a : α} {w d : List β}
    (hw : encode a = .ok w) (hd : d <+: w) (hne : d ≠ w) : ∃ exc, decode d = .error exc := by
  rw [hc.error_iff]
  rintro a' w' r hw' rfl
  obtain ⟨t, rfl⟩ := hd
  -- the whole word would decode in two ways
  have hwhole := (hc.exact (w' ++ r ++ t) a []).2 ⟨_, hw, (List.append_nil _).symm⟩
  have hearly := (hc.exact (w' ++ r ++ t) a' (r ++ t)).2 ⟨w', hw', List.append_assoc _ _ _⟩
  rw [hwhole] at hearly
  have hnil : [] = r ++ t := congrArg Prod.snd (Except.ok.inj hearly)
  obtain ⟨rfl, rfl⟩ := List.append_eq_nil_iff.1 hnil.symm
  simp at hne

/-- A stream of words and a tail that does not start with one come apart again. -/
theorem drain_flatten (hc : SelfDelimiting encode decode)
    (hshort : ∀ d a r, decode d = .ok (a, r) → r.length < d.length) {tail : List β}
    (htail : Unstarted encode tail) {as : List α} {words : List (List β)}
    (hwords : List.Forall₂ (fun a w => encode a = .ok w) as words) :
    drain decode hshort (words.flatten ++ tail) = (as, tail) := by
  induction hwords with
  | nil =>
    obtain ⟨exc, hexc⟩ := (hc.error_iff tail).2 htail
    rw [List.flatten_nil, List.nil_append, drain_error hshort hexc]
  | @cons a w as words hw _ ih =>
    have hfirst : decode ((w :: words).flatten ++ tail) = .ok (a, words.flatten ++ tail) := by
      rw [hc.exact]
      exact ⟨w, hw, by rw [List.flatten_cons, List.append_assoc]⟩
    rw [drain_ok hshort hfirst, ih]

end SelfDelimiting
end Foundations
