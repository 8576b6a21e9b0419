import Dhava.Proofs.LwwOrder
import Mathlib.Data.Set.Pairwise.Basic

/-! What a record ends up as when the operations on it are full replacements. Where their
clocks form a chain the greatest one wins under any delivery, and two concurrent ones are
decided alike by the replica that holds the first and the replica that holds the second. -/

namespace Dhava

open Foundations

variable {V : Type}

/-- `b` is strictly before `a` by `VectorClock.compare`. -/
def Operation.Follows (a b : Operation V) : Prop :=
  (VectorClock.ofDict b.vectorClock).compare (VectorClock.ofDict a.vectorClock).clocks = .before

instance : DecidableRel (Operation.Follows (V := V)) :=
  fun _ _ => inferInstanceAs (Decidable (_ = _))

theorem Operation.follows_iff {a b : Operation V} :
    a.Follows b ↔ VectorClock.ofDict b.vectorClock < VectorClock.ofDict a.vectorClock :=
  VectorClock.compare_before

theorem Operation.Follows.trans {a b c : Operation V} (hab : a.Follows b) (hbc : b.Follows c) :
    a.Follows c :=
  follows_iff.2 ((follows_iff.1 hbc).trans (follows_iff.1 hab))

namespace ConflictResolver

/-- Between operations that are not concurrent the timestamps do not count. -/
theorem accepts_of_shows_ordered (self : ConflictResolver) {r : Record V} {held op : Operation V}
    (hr : Shows (some r) (some held)) (ho : held = op ∨ held.Follows op ∨ op.Follows held) :
    self.accepts (some r) op = true ↔ op.Follows held := by
  obtain ⟨hcontent, hlive⟩ := hr
  have hvc : r.vectorClock = held.vectorClock := congrArg (fun c => c.2.1) (Option.some.inj hcontent)
  rw [self.accepts_live (hlive r rfl), hvc, Operation.follows_iff]
  refine or_iff_left fun h => ?_
  obtain ⟨hle, hge⟩ := VectorClock.compare_concurrent.1 h.1
  rcases ho with rfl | hbefore | hafter
  · exact hle le_rfl
  · exact hge (Operation.follows_iff.1 hbefore).le
  · exact hle (Operation.follows_iff.1 hafter).le

/-- Any delivery, with repetitions and omissions, of operations whose clocks form a chain
leaves the state written by the greatest one delivered. -/
theorem causal_chain_converges (self : ConflictResolver) (key : Key) (ops : Set (Operation V))
    (hkey : ∀ op ∈ ops, op.key = key)
    (hfull : ∀ op ∈ ops, op.opType = .create ∨ op.opType = .update)
    (hchain : ops.Pairwise fun a b =>
      (VectorClock.ofDict a.vectorClock).compare (VectorClock.ofDict b.vectorClock).clocks = .before ∨
        (VectorClock.ofDict a.vectorClock).compare (VectorClock.ofDict b.vectorClock).clocks = .after)
    (s : LocalStore V) (hs : s.get key true = none) (delivered : List (Operation V))
    (hne : delivered ≠ []) (hdel : ∀ op ∈ delivered, op ∈ ops) :
    ∃ greatest ∈ delivered,
      (∀ op ∈ delivered, op ≠ greatest →
        (VectorClock.ofDict op.vectorClock).compare
          (VectorClock.ofDict greatest.vectorClock).clocks = .before) ∧
      ∃ r, (delivered.foldl self.process s).get key = some r ∧ r.data = greatest.payload ∧
        r.vectorClock = greatest.vectorClock ∧ r.lastModified = greatest.timestamp ∧
        r.lastModifiedBy = greatest.nodeId := by
  have hline : ∀ a ∈ delivered, ∀ b ∈ delivered, a = b ∨ a.Follows b ∨ b.Follows a := by
    intro a ha b hb
    rcases eq_or_ne a b with rfl | hab
    · exact Or.inl rfl
    · rcases hchain (hdel a ha) (hdel b hb) hab with h | h
      · exact Or.inr (Or.inr h)
      · exact Or.inr (Or.inl (Operation.follows_iff.2 (VectorClock.compare_after.1 h)))
  obtain ⟨w, hw⟩ : ∃ w, champion Operation.Follows delivered = some w := champion_isSome hne
  have hbeats := champion_beats_all (fun _ _ _ h h' => h.trans h') hline hw
  have hshow : Shows (delivered.foldl self.settle none) (champion Operation.Follows delivered) :=
    self.shows_champion (fun op ho => hfull op (hdel op ho))
      (List.pairwise_of_forall_mem_list fun a ha b hb r hr =>
        self.accepts_of_shows_ordered hr (hline a ha b hb))
  rw [hw, ← hs, ← get_foldl_process self key delivered (fun op ho => hkey op (hdel op ho))] at hshow
  refine ⟨w, champion_mem hw, fun op ho hne => (hbeats op ho).resolve_left hne, ?_⟩
  obtain ⟨r, hrow, hcontent⟩ := Option.map_eq_some_iff.1 hshow.1
  simp only [Record.content, Operation.content, Prod.mk.injEq] at hcontent
  exact ⟨r, (LocalStore.get_eq_some_iff _ _ _).2 ⟨hrow, hshow.2 r hrow⟩, hcontent⟩

theorem causal_chain_converges_example :
    let first := sampleUpdate "z" 9
    let second := { sampleUpdate "a" 0 with
      vectorClock := ((∅ : Dict String ℤ).insert "z" 1).insert "a" 1 }
    ∃ greatest ∈ [second, first, second],
      (∀ op ∈ [second, first, second], op ≠ greatest →
        (VectorClock.ofDict op.vectorClock).compare
          (VectorClock.ofDict greatest.vectorClock).clocks = .before) ∧
      ∃ r, ([second, first, second].foldl (process { nodeId := "hq" }) LocalStore.empty).get
          ("incidents", "r") = some r ∧ r.data = greatest.payload ∧
        r.vectorClock = greatest.vectorClock ∧ r.lastModified = greatest.timestamp ∧
        r.lastModifiedBy = greatest.nodeId := by
  intro first second
  have hpair : ∀ a ∈ ({first, second} : Set (Operation ℕ)), a = first ∨ a = second := fun _ h => h
  refine causal_chain_converges { nodeId := "hq" } ("incidents", "r") {first, second} ?_ ?_ ?_
    LocalStore.empty rfl _ (by simp) (by simp)
  · intro a ha
    rcases hpair a ha with rfl | rfl <;> rfl
  · intro a ha
    rcases hpair a ha with rfl | rfl <;> exact Or.inr rfl
  · intro a ha b hb hab
    rcases hpair a ha with rfl | rfl <;> rcases hpair b hb with rfl | rfl
    · exact absurd rfl hab
    · exact Or.inl (by decide +kernel)
    · exact Or.inr (by decide +kernel)
    · exact absurd rfl hab

/-- The replica that holds `o₁` and takes `o₂` and the replica that holds `o₂` and takes
`o₁` end with the same content. -/
theorem lww_symmetric (self peer : ConflictResolver) (hplus : peer.plus = self.plus)
    (htol : peer.clockSkewTolerance = self.clockSkewTolerance)
    (hnonneg : 0 ≤ self.clockSkewTolerance) (o₁ o₂ : Operation V)
    (hfull₁ : o₁.opType = .create ∨ o₁.opType = .update)
    (hfull₂ : o₂.opType = .create ∨ o₂.opType = .update) (hkey : o₂.key = o₁.key)
    (hids : o₁.nodeId ≠ o₂.nodeId) (hconc : o₁.Concurrent o₂) (s₁ s₂ : LocalStore V)
    (r₁ r₂ : Record V) (hs₁ : s₁.get o₁.key = some r₁) (hr₁ : r₁.content = o₁.content)
    (hs₂ : s₂.get o₁.key = some r₂) (hr₂ : r₂.content = o₂.content) :
    ∃ r r', (self.process s₁ o₂).get o₁.key = some r ∧ (peer.process s₂ o₁).get o₁.key = some r' ∧
      r.data = r'.data ∧ r.vectorClock = r'.vectorClock ∧ r.lastModified = r'.lastModified ∧
      r.lastModifiedBy = r'.lastModifiedBy := by
  obtain ⟨hrow₁, hlive₁⟩ := (LocalStore.get_eq_some_iff _ _ _).1 hs₁
  obtain ⟨hrow₂, hlive₂⟩ := (LocalStore.get_eq_some_iff _ _ _).1 hs₂
  have hshow₁ : Shows (some r₁) (some o₁) := ⟨congrArg some hr₁, fun r hr => by
    obtain rfl := Option.some.inj hr
    exact hlive₁⟩
  have hshow₂ : Shows (some r₂) (some o₂) := ⟨congrArg some hr₂, fun r hr => by
    obtain rfl := Option.some.inj hr
    exact hlive₂⟩
  have hend₁ := self.shows_settle hfull₂ hshow₁ fun r h hh hr => by
    obtain rfl := Option.some.inj hh
    exact self.accepts_of_shows hr hconc
  have hend₂ := peer.shows_settle hfull₁ hshow₂ fun r h hh hr => by
    obtain rfl := Option.some.inj hh
    exact peer.accepts_of_shows hr (Std.Symm.symm _ _ hconc)
  -- the title goes to the same operation, whoever held it
  have hsame := challenge_comm (Operation.beatsLww_total self.plus hnonneg hids)
  rw [hplus, htol, ← hsame, ← hrow₂, ← get_process_self] at hend₂
  rw [← hkey] at hrow₁
  rw [← hrow₁, ← get_process_self, hkey] at hend₁
  obtain ⟨w, hw⟩ : ∃ w,
      challenge (Operation.BeatsLww self.plus self.clockSkewTolerance) (some o₁) o₂ = some w :=
    challenge_isSome (some o₁) o₂
  rw [hw] at hend₁ hend₂
  obtain ⟨r, hr, hrw⟩ := Option.map_eq_some_iff.1 hend₁.1
  obtain ⟨r', hr', hrw'⟩ := Option.map_eq_some_iff.1 hend₂.1
  have hcontent : r.content = r'.content := hrw.trans hrw'.symm
  simp only [Record.content, Prod.mk.injEq] at hcontent
  exact ⟨r, r', (LocalStore.get_eq_some_iff _ _ _).2 ⟨hr, hend₁.2 r hr⟩,
    (LocalStore.get_eq_some_iff _ _ _).2 ⟨hr', hend₂.2 r' hr'⟩, hcontent⟩

theorem lww_symmetric_example :
    let a := sampleUpdate "a" 0
    let b := sampleUpdate "b" 1
    ∃ r r', (process { nodeId := "a" } (LocalStore.empty.applyOperation a).1 b).get a.key = some r ∧
      (process { nodeId := "b" } (LocalStore.empty.applyOperation b).1 a).get a.key = some r' ∧
      r.data = r'.data ∧ r.vectorClock = r'.vectorClock ∧ r.lastModified = r'.lastModified ∧
      r.lastModifiedBy = r'.lastModifiedBy :=
  lww_symmetric { nodeId := "a" } { nodeId := "b" } rfl rfl (by norm_num) (sampleUpdate "a" 0)
    (sampleUpdate "b" 1) (Or.inr rfl) (Or.inr rfl) rfl (by decide) (by decide +kernel) _ _
    (LocalStore.written none (sampleUpdate "a" 0)) (LocalStore.written none (sampleUpdate "b" 1))
    (by decide +kernel) rfl (by decide +kernel) rfl

end ConflictResolver
end Dhava
