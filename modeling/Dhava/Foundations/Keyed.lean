import Mathlib.Data.List.Basic
import Mathlib.Data.List.Forall2
import Mathlib.Data.List.Nodup
import Mathlib.Data.List.Perm.Basic

/-! Tables with a primary key. Rows stand in insertion order, and the key constraint is
a field, so that no operation can break it. -/

namespace Foundations

structure Keyed {α κ : Type*} (key : α → κ) where
  rows : List α
  nodup : (rows.map key).Nodup

namespace Keyed

variable {α κ : Type*} {key : α → κ}

def empty : Keyed key := ⟨[], List.nodup_nil⟩

/-- `UPDATE ... SET f WHERE p`. -/
def update (t : Keyed key) (p : α → Bool) (f : α → α) (hf : ∀ r, key (f r) = key r) :
    Keyed key where
  rows := t.rows.map fun r => if p r then f r else r
  nodup := by
    rw [List.map_map, List.map_congr_left fun r _ => show _ = key r by
      simp only [Function.comp]; split_ifs <;> simp [hf]]
    exact t.nodup

/-- `DELETE ... WHERE p`. -/
def delete (t : Keyed key) (p : α → Bool) : Keyed key where
  rows := t.rows.filter fun r => !p r
  nodup := t.nodup.sublist (List.filter_sublist.map key)

theorem eq_of_rows_eq {t t' : Keyed key} (h : t.rows = t'.rows) : t = t' := by
  cases t
  cases t'
  cases h
  rfl

theorem eq_of_key_eq (t : Keyed key) {r r' : α} (h : r ∈ t.rows) (h' : r' ∈ t.rows)
    (hk : key r = key r') : r = r' :=
  List.inj_on_of_nodup_map t.nodup h h' hk

theorem mem_update {t : Keyed key} {p : α → Bool} {f : α → α} {hf : ∀ r, key (f r) = key r}
    {r : α} : r ∈ (t.update p f hf).rows ↔
      ∃ r₀ ∈ t.rows, r = if p r₀ then f r₀ else r₀ := by
  rw [update, List.mem_map]
  exact exists_congr fun _ => and_congr_right fun _ => eq_comm

theorem map_key_update (t : Keyed key) (p : α → Bool) (f : α → α) (hf : ∀ r, key (f r) = key r) :
    (t.update p f hf).rows.map key = t.rows.map key := by
  rw [update, List.map_map]
  refine List.map_congr_left fun r _ => ?_
  change key (if p r then f r else r) = key r
  split_ifs
  · exact hf r
  · rfl

/-- Rows that an update brings to `q` count for `q` from then on. -/
theorem countP_update {t : Keyed key} {p q : α → Bool} {f : α → α} (hf : ∀ r, key (f r) = key r)
    (hset : ∀ r ∈ t.rows, p r = true → q r = false ∧ q (f r) = true) :
    (t.update p f hf).rows.countP q = t.rows.countP q + t.rows.countP p := by
  change (t.rows.map fun r => if p r then f r else r).countP q = _
  generalize t.rows = rows at hset ⊢
  induction rows with
  | nil => rfl
  | cons r rest ih =>
    have hrest := ih fun a ha => hset a (List.mem_cons_of_mem r ha)
    rw [List.map_cons, List.countP_cons, List.countP_cons, List.countP_cons, hrest]
    cases hp : p r with
    | true =>
      obtain ⟨hbefore, hafter⟩ := hset r List.mem_cons_self hp
      simp [hbefore, hafter]
      omega
    | false =>
      simp only [Bool.false_eq_true, if_false, Nat.add_zero]
      exact Nat.add_right_comm _ _ _

theorem mem_delete {t : Keyed key} {p : α → Bool} {r : α} :
    r ∈ (t.delete p).rows ↔ r ∈ t.rows ∧ p r = false := by
  simp [delete]

variable [DecidableEq κ]

/-- `SELECT ... WHERE key = k`. -/
def find? (t : Keyed key) (k : κ) : Option α := t.rows.find? fun r => key r = k

/-- `INSERT`, refused where the key is taken. -/
def insert? (t : Keyed key) (a : α) : Option (Keyed key) :=
  if h : key a ∈ t.rows.map key then none
  else some
    { rows := t.rows ++ [a]
      nodup := by
        rw [List.map_append, List.map_singleton, ← List.concat_eq_append, List.nodup_concat]
        exact ⟨h, t.nodup⟩ }

/-- `INSERT ... ON CONFLICT (key) DO UPDATE SET f`. -/
def upsert (t : Keyed key) (a : α) (f : α → α) (hf : ∀ r, key (f r) = key r) : Keyed key :=
  match t.insert? a with
  | some t' => t'
  | none => t.update (fun r => key r = key a) f hf

theorem find?_eq_some (t : Keyed key) {k : κ} {r : α} :
    t.find? k = some r ↔ r ∈ t.rows ∧ key r = k := by
  constructor
  · intro h
    exact ⟨List.mem_of_find?_eq_some h, by simpa using List.find?_some h⟩
  · rintro ⟨h, rfl⟩
    cases hf : t.find? (key r) with
    | none =>
      have := List.find?_eq_none.1 hf r h
      simp at this
    | some r' =>
      have hk : key r' = key r := by simpa using List.find?_some hf
      rw [t.eq_of_key_eq (List.mem_of_find?_eq_some hf) h hk]

theorem find?_eq_none (t : Keyed key) {k : κ} : t.find? k = none ↔ ∀ r ∈ t.rows, key r ≠ k := by
  simp [find?]

@[simp] theorem find?_empty (k : κ) : (empty : Keyed key).find? k = none := rfl

theorem mem_keys_iff (t : Keyed key) {k : κ} : k ∈ t.rows.map key ↔ ∃ r, t.find? k = some r := by
  simp only [List.mem_map, find?_eq_some]

theorem insert?_rows {t t' : Keyed key} {a : α} (h : t.insert? a = some t') :
    key a ∉ t.rows.map key ∧ t'.rows = t.rows ++ [a] := by
  unfold insert? at h
  split_ifs at h with hk
  obtain rfl := Option.some.inj h
  exact ⟨hk, rfl⟩

theorem insert?_isSome (t : Keyed key) (a : α) (h : key a ∉ t.rows.map key) :
    ∃ t', t.insert? a = some t' := by
  unfold insert?
  rw [dif_neg h]
  exact ⟨_, rfl⟩

theorem insert?_eq_none (t : Keyed key) (a : α) :
    t.insert? a = none ↔ key a ∈ t.rows.map key := by
  unfold insert?
  split_ifs with h <;> simp [h]

theorem find?_insert? {t t' : Keyed key} {a : α} (h : t.insert? a = some t') (k : κ) :
    t'.find? k = if k = key a then some a else t.find? k := by
  obtain ⟨hk, hr⟩ := insert?_rows h
  split_ifs with hka
  · exact (find?_eq_some t').2 ⟨by simp [hr], hka.symm⟩
  · simp only [find?, hr, List.find?_append]
    simp [Ne.symm hka]

theorem find?_update (t : Keyed key) (p : α → Bool) (f : α → α)
    (hf : ∀ r, key (f r) = key r) (k : κ) :
    (t.update p f hf).find? k = (t.find? k).map fun r => if p r then f r else r := by
  have hkey : ∀ r, key (if p r then f r else r) = key r := fun r => by split_ifs <;> simp [hf]
  cases h : t.find? k with
  | none =>
    rw [find?_eq_none] at h
    rw [Option.map_none, find?_eq_none]
    intro r hr
    obtain ⟨r₀, h₀, rfl⟩ := mem_update.1 hr
    rw [hkey]
    exact h r₀ h₀
  | some r =>
    obtain ⟨hr, rfl⟩ := (find?_eq_some t).1 h
    exact (find?_eq_some _).2 ⟨mem_update.2 ⟨r, hr, rfl⟩, hkey r⟩

/-- What an upsert leaves under each key. -/
theorem find?_upsert (t : Keyed key) (a : α) (f : α → α) (hf : ∀ r, key (f r) = key r) (k : κ) :
    (t.upsert a f hf).find? k =
      if k = key a then some ((t.find? (key a)).elim a f) else t.find? k := by
  unfold upsert
  cases h : t.insert? a with
  | some t' =>
    have hnone : t.find? (key a) = none := by
      rw [find?_eq_none]
      exact fun r hr he => (insert?_rows h).1 (List.mem_map.2 ⟨r, hr, he⟩)
    rw [hnone]
    exact find?_insert? h k
  | none =>
    obtain ⟨r, hr⟩ := (mem_keys_iff t).1 ((insert?_eq_none t a).1 h)
    simp only [find?_update]
    split_ifs with hk
    · rw [hk, hr]
      simp [((find?_eq_some t).1 hr).2]
    · cases hq : t.find? k with
      | none => rfl
      | some q =>
        have := ((find?_eq_some t).1 hq).2
        simp [this, hk]

/-- The same, where both branches of the upsert write the row `b`. -/
theorem find?_upsert_eq (t : Keyed key) {a b : α} {f : α → α} {hf : ∀ r, key (f r) = key r}
    (hnew : a = b) (hold : ∀ r, key r = key a → t.find? (key a) = some r → f r = b) (k : κ) :
    (t.upsert a f hf).find? k = if k = key a then some b else t.find? k := by
  rw [find?_upsert]
  cases h : t.find? (key a) with
  | none => rw [Option.elim_none, hnew]
  | some r => rw [Option.elim_some, hold r ((find?_eq_some t).1 h).2 h]

/-! ### Two tables row by row

A table whose rows stand for those of another, under the same keys. -/

section Rows

variable {β : Type*} {key' : β → κ} {R : α → β → Prop} {t : Keyed key} {u : Keyed key'}

theorem find?_of_forall₂ (hkey : ∀ a b, R a b → key a = key' b) (h : List.Forall₂ R t.rows u.rows)
    (k : κ) : Option.Rel R (t.find? k) (u.find? k) := by
  unfold find?
  generalize t.rows = as at h
  generalize u.rows = bs at h
  induction h with
  | nil => exact .none
  | @cons a b as bs hab _ ih =>
    rw [List.find?_cons, List.find?_cons, ← hkey a b hab]
    cases decide (key a = k) with
    | true => exact .some hab
    | false => exact ih

omit [DecidableEq κ] in
theorem keys_of_forall₂ (hkey : ∀ a b, R a b → key a = key' b) (h : List.Forall₂ R t.rows u.rows) :
    t.rows.map key = u.rows.map key' := by
  generalize t.rows = as at h
  generalize u.rows = bs at h
  induction h with
  | nil => rfl
  | @cons a b as bs hab _ ih => rw [List.map_cons, List.map_cons, hkey a b hab, ih]

theorem upsert_forall₂ {a : α} {f : α → α} {hf : ∀ r, key (f r) = key r} {b : β} {g : β → β}
    {hg : ∀ r, key' (g r) = key' r} (hkey : ∀ a b, R a b → key a = key' b) (hnew : R a b)
    (hold : ∀ r q, key r = key a → R r q → R (f r) (g q)) (h : List.Forall₂ R t.rows u.rows) :
    List.Forall₂ R (t.upsert a f hf).rows (u.upsert b g hg).rows := by
  have hkeys := keys_of_forall₂ hkey h
  have hab := hkey a b hnew
  unfold upsert
  cases ht : t.insert? a with
  | some t' =>
    obtain ⟨hfree, hrows⟩ := insert?_rows ht
    obtain ⟨u', hu⟩ := u.insert?_isSome b (by rwa [hkeys, hab] at hfree)
    rw [hu]
    simp only
    rw [hrows, (insert?_rows hu).2]
    exact List.rel_append h (.cons hnew .nil)
  | none =>
    have hu : u.insert? b = none := by
      rw [insert?_eq_none, ← hkeys, ← hab]
      exact (insert?_eq_none t a).1 ht
    rw [hu]
    refine List.forall₂_map_left_iff.2 (List.forall₂_map_right_iff.2 (h.imp fun r q hrq => ?_))
    have hrq' := hkey r q hrq
    by_cases hr : key r = key a
    · have hq : key' q = key' b := by rw [← hrq', hr, hab]
      simp only [hr, hq, decide_true, if_true]
      exact hold r q hr hrq
    · have hq : key' q ≠ key' b := by rwa [← hrq', ← hab]
      simp only [hr, hq, decide_false]
      exact hrq

end Rows

end Keyed
end Foundations
