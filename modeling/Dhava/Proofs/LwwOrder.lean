import Dhava.Foundations.Contest
import Dhava.Spec.Conflict

/-! Concurrent updates of one record in any order. Last write wins is a contest for the
row: the row shows the operation that holds the title. With a skew window the relation
need not be transitive, so the order matters unless one operation beats all others. -/

namespace Dhava

open Foundations

variable {V : Type}

/-- The columns two replicas have to agree on. The version counts local applications. -/
def Record.content (r : Record V) : Dict String V × Dict String ℤ × ℚ × String :=
  (r.data, r.vectorClock, r.lastModified, r.lastModifiedBy)

def Operation.content (op : Operation V) : Dict String V × Dict String ℤ × ℚ × String :=
  (op.payload, op.vectorClock, op.timestamp, op.nodeId)

def Operation.Concurrent (a b : Operation V) : Prop :=
  (VectorClock.ofDict a.vectorClock).compare (VectorClock.ofDict b.vectorClock).clocks = .concurrent

instance (a b : Operation V) : Decidable (a.Concurrent b) := inferInstanceAs (Decidable (_ = _))

instance : Std.Symm (Operation.Concurrent (V := V)) where
  symm a b h := by
    obtain ⟨hab, hba⟩ := VectorClock.compare_concurrent.1 h
    exact VectorClock.compare_concurrent.2 ⟨hba, hab⟩

/-- The operations that put their payload in the place of the whole record. -/
def Operation.Replaces (op : Operation V) : Prop := op.opType = .create ∨ op.opType = .update

instance (op : Operation V) : Decidable op.Replaces := inferInstanceAs (Decidable (_ ∨ _))

/-- Last write wins between two operations: later by more than the tolerance, or not
earlier by more than it and with the greater node id. -/
def Operation.BeatsLww (plus : RoundedSum) (tolerance : ℚ) (a b : Operation V) : Prop :=
  a.timestamp > plus.add b.timestamp tolerance ∨
    (¬ b.timestamp > plus.add a.timestamp tolerance ∧ a.nodeId > b.nodeId)

instance (plus : RoundedSum) (tolerance : ℚ) :
    DecidableRel (Operation.BeatsLww (V := V) plus tolerance) :=
  fun _ _ => inferInstanceAs (Decidable (_ ∨ (_ ∧ _)))

theorem Operation.beatsLww_total (plus : RoundedSum) {tolerance : ℚ} (ht : 0 ≤ tolerance)
    {a b : Operation V} (hn : a.nodeId ≠ b.nodeId) :
    a.BeatsLww plus tolerance b ↔ ¬ b.BeatsLww plus tolerance a := by
  unfold BeatsLww
  rcases lt_or_gt_of_ne hn with h | h
  · have h' := not_lt.2 h.le
    simp only [gt_iff_lt, h, h', and_false, or_false, and_true, not_or, not_not]
    exact ⟨fun hab => ⟨plus.not_add_lt ht ht hab, hab⟩, fun hab => hab.2⟩
  · have h' := not_lt.2 h.le
    simp only [gt_iff_lt, h, h', and_false, or_false, and_true]
    refine ⟨?_, fun hba => Or.inr hba⟩
    rintro (hab | hab)
    · exact plus.not_add_lt ht ht hab
    · exact hab

namespace ConflictResolver

/-- The row is live and shows the content of an operation. -/
def Shows (row : Option (Record V)) (op : Option (Operation V)) : Prop :=
  row.map Record.content = op.map Operation.content ∧ ∀ r, row = some r → r.deleted = false

theorem accepts_of_shows (self : ConflictResolver) {r : Record V} {held op : Operation V}
    (hr : Shows (some r) (some held)) (hc : held.Concurrent op) :
    self.accepts (some r) op = true ↔ op.BeatsLww self.plus self.clockSkewTolerance held := by
  obtain ⟨hcontent, hlive⟩ := hr
  simp only [Option.map_some, Option.some.injEq, Record.content, Operation.content,
    Prod.mk.injEq] at hcontent
  obtain ⟨-, hvc, hts, hby⟩ := hcontent
  have hconc : (VectorClock.ofDict r.vectorClock).compare (VectorClock.ofDict op.vectorClock).clocks =
      .concurrent := by
    rw [hvc]
    exact hc
  rw [self.accepts_concurrent (hlive r rfl) hconc]
  unfold WinsLww Operation.BeatsLww
  rw [hts, hby]

theorem shows_written (existing : Option (Record V)) {op : Operation V} (hop : op.Replaces) :
    Shows (some (LocalStore.written existing op)) (some op) := by
  refine ⟨?_, fun r hr => ?_⟩
  · rcases hop with h | h <;> simp [Record.content, Operation.content, LocalStore.writtenData, h]
  · obtain rfl := Option.some.inj hr
    rcases hop with h | h <;> simp [h]

theorem accepts_none_of_replaces (self : ConflictResolver) {op : Operation V} (hop : op.Replaces) :
    self.accepts none op = true := by
  rw [self.accepts_none]
  rcases hop with h | h <;> simp [h]

/-- One more operation: where the resolver decides as `beats` does, the row keeps showing
the title holder. -/
theorem shows_settle (self : ConflictResolver) {beats : Operation V → Operation V → Prop}
    [DecidableRel beats] {row : Option (Record V)} {held : Option (Operation V)} {op : Operation V}
    (hop : op.Replaces) (hrow : Shows row held)
    (hacc : ∀ r h, held = some h → Shows (some r) (some h) →
      (self.accepts (some r) op = true ↔ beats op h)) :
    Shows (self.settle row op) (challenge beats held op) := by
  rcases held with - | h
  · obtain rfl : row = none := by simpa using hrow.1
    rw [settle, if_pos (self.accepts_none_of_replaces hop)]
    exact shows_written none hop
  · obtain ⟨r, rfl⟩ : ∃ r, row = some r := by
      rcases row with - | r
      · simp [Shows] at hrow
      · exact ⟨r, rfl⟩
    have hdecides := hacc r h rfl hrow
    unfold settle
    simp only [challenge, ← hdecides]
    split_ifs
    · exact shows_written _ hop
    · exact hrow

/-- After a list of full replacements the row shows the champion of the list. -/
theorem shows_champion (self : ConflictResolver) {beats : Operation V → Operation V → Prop}
    [DecidableRel beats] {ops : List (Operation V)} (hops : ∀ op ∈ ops, op.Replaces)
    (hacc : ops.Pairwise fun a b => ∀ r, Shows (some r) (some a) →
      (self.accepts (some r) b = true ↔ beats b a)) :
    Shows (ops.foldl self.settle none) (champion beats ops) := by
  induction ops using List.reverseRecOn with
  | nil => exact ⟨rfl, fun r hr => by simp at hr⟩
  | append_singleton l op ih =>
    rw [champion_concat, List.foldl_append, List.foldl_cons, List.foldl_nil]
    obtain ⟨hl, -, hop⟩ := List.pairwise_append.1 hacc
    apply self.shows_settle (hops op (by simp))
    · exact ih (fun o ho => hops o (by simp [ho])) hl
    · intro r h hh
      exact hop h (champion_mem hh) op (by simp) r

/-- Two replicas with the same tolerance that add alike and take in the same concurrent updates of one
record agree whatever the orders exactly when one of the updates beats all others. -/
theorem order_independent_iff (self peer : ConflictResolver)
    (hplus : peer.plus = self.plus) (htol : peer.clockSkewTolerance = self.clockSkewTolerance)
    (hnonneg : 0 ≤ self.clockSkewTolerance) (key : Key) (s s' : LocalStore V)
    (hs : s.get key true = none) (hs' : s'.get key true = none) (ops : List (Operation V))
    (hkey : ∀ op ∈ ops, op.key = key) (hupd : ∀ op ∈ ops, op.opType = .update)
    (hids : (ops.map Operation.nodeId).Nodup)
    (hconc : ops.Pairwise Operation.Concurrent) :
    (∀ ops' : List (Operation V), ops'.Perm ops →
        ((ops.foldl self.process s).get key true).map Record.content =
          ((ops'.foldl peer.process s').get key true).map Record.content) ↔
      ops = [] ∨ ∃ w ∈ ops, ∀ op ∈ ops, op ≠ w → w.BeatsLww self.plus self.clockSkewTolerance op := by
  have hnd : ops.Nodup := hids.of_map _
  have hinj : ∀ a ∈ ops, ∀ b ∈ ops, a.nodeId = b.nodeId → a = b := fun a ha b hb =>
    List.inj_on_of_nodup_map hids ha hb
  -- what either replica shows after any order
  have hrow : ∀ (res : ConflictResolver) (t : LocalStore V), t.get key true = none →
      res.plus = self.plus → res.clockSkewTolerance = self.clockSkewTolerance →
      ∀ l : List (Operation V), l.Perm ops →
      ((l.foldl res.process t).get key true).map Record.content =
        (champion (Operation.BeatsLww self.plus self.clockSkewTolerance) l).map Operation.content := by
    intro res t ht hresPlus hres l hp
    rw [get_foldl_process res key l (fun o ho => hkey o (hp.mem_iff.1 ho)), ht, ← hresPlus, ← hres]
    have hpair : l.Pairwise Operation.Concurrent := (hp.pairwise_iff (Std.Symm.symm _ _)).2 hconc
    exact (res.shows_champion (fun o ho => Or.inr (hupd o (hp.mem_iff.1 ho)))
      (hpair.imp fun hab r hr => res.accepts_of_shows hr hab)).1
  -- equal contents name the same operation
  have hsame : ∀ l₁ l₂ : List (Operation V), l₁.Perm ops → l₂.Perm ops →
      (champion (Operation.BeatsLww self.plus self.clockSkewTolerance) l₁).map Operation.content =
        (champion (Operation.BeatsLww self.plus self.clockSkewTolerance) l₂).map Operation.content →
      champion (Operation.BeatsLww self.plus self.clockSkewTolerance) l₁ =
        champion (Operation.BeatsLww self.plus self.clockSkewTolerance) l₂ := by
    intro l₁ l₂ h₁ h₂ he
    cases hc₁ : champion (Operation.BeatsLww self.plus self.clockSkewTolerance) l₁ with
    | none =>
      rw [hc₁] at he
      exact (Option.map_eq_none_iff.1 he.symm).symm
    | some a =>
      obtain ⟨b, hb⟩ : ∃ b,
          champion (Operation.BeatsLww self.plus self.clockSkewTolerance) l₂ = some b := by
        rw [hc₁] at he
        obtain ⟨b, hb, -⟩ := Option.map_eq_some_iff.1 he.symm
        exact ⟨b, hb⟩
      rw [hc₁, hb] at he
      have hid : a.nodeId = b.nodeId := congrArg (fun c => c.2.2.2) (Option.some.inj he)
      rw [hb, hinj a (h₁.mem_iff.1 (champion_mem hc₁)) b (h₂.mem_iff.1 (champion_mem hb)) hid]
  rw [← champion_perm_iff hnd fun a ha b hb hab =>
    Operation.beatsLww_total self.plus hnonneg fun hid => hab (hinj a ha b hb hid)]
  constructor
  · intro h l₁ l₂ h₁ h₂
    apply hsame l₁ l₂ h₁ h₂
    rw [← hrow peer s' hs' hplus htol l₁ h₁, ← hrow peer s' hs' hplus htol l₂ h₂, ← h l₁ h₁, ← h l₂ h₂]
  · intro h ops' hp
    rw [hrow self s hs rfl rfl ops (List.Perm.refl _), hrow peer s' hs' hplus htol ops' hp,
      h ops ops' (List.Perm.refl _) hp]

/-- An update of one record, for the fixed inputs below. -/
def sampleUpdate (nodeId : String) (timestamp : ℚ) : Operation ℕ where
  opId := nodeId
  nodeId
  opType := .update
  collection := "incidents"
  recordId := "r"
  payload := (∅ : Dict String ℕ).insert nodeId 1
  timestamp
  vectorClock := (∅ : Dict String ℤ).insert nodeId 1
  lamportTimestamp := 1
  enqueuedAt := timestamp

theorem order_independent_two :
    (∀ ops' : List (Operation ℕ), ops'.Perm [sampleUpdate "a" 0, sampleUpdate "b" 3] →
      (([sampleUpdate "a" 0, sampleUpdate "b" 3].foldl
          (process { nodeId := "hq" }) LocalStore.empty).get ("incidents", "r") true).map
            Record.content =
        ((ops'.foldl (process { nodeId := "edge" }) LocalStore.empty).get ("incidents", "r")
          true).map Record.content) ↔
      [sampleUpdate "a" 0, sampleUpdate "b" 3] = [] ∨
        ∃ w ∈ [sampleUpdate "a" 0, sampleUpdate "b" 3],
          ∀ op ∈ [sampleUpdate "a" 0, sampleUpdate "b" 3], op ≠ w → w.BeatsLww Binary64.sum 1 op :=
  order_independent_iff { nodeId := "hq" } { nodeId := "edge" } rfl rfl (by norm_num)
    ("incidents", "r") LocalStore.empty LocalStore.empty rfl rfl _ (by decide) (by decide)
    (by decide) (by decide)

/-- Three reports 0.75 s apart, the earlier one always by the greater node: the first beats
the second, the second the third, and the third the first. -/
theorem order_matters :
    [sampleUpdate "b" (3/4), sampleUpdate "a" (3/2), sampleUpdate "c" 0].Perm
        [sampleUpdate "c" 0, sampleUpdate "b" (3/4), sampleUpdate "a" (3/2)] ∧
      [sampleUpdate "c" 0, sampleUpdate "b" (3/4), sampleUpdate "a" (3/2)].Pairwise
        Operation.Concurrent ∧
      (([sampleUpdate "c" 0, sampleUpdate "b" (3/4), sampleUpdate "a" (3/2)].foldl
          (process { nodeId := "hq" }) LocalStore.empty).get ("incidents", "r") true).map
            Record.content = some (sampleUpdate "a" (3/2)).content ∧
      (([sampleUpdate "b" (3/4), sampleUpdate "a" (3/2), sampleUpdate "c" 0].foldl
          (process { nodeId := "edge" }) LocalStore.empty).get ("incidents", "r") true).map
            Record.content = some (sampleUpdate "c" 0).content ∧
      (sampleUpdate "a" (3/2)).content ≠ (sampleUpdate "c" 0).content := by
  decide +kernel

end ConflictResolver
end Dhava
