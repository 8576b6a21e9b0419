import Dhava.Proofs.Tombstones

/-! One writer's operations on one record, in the order they were issued, and the row of a
replica that takes them in out of order. Full replacements may overtake earlier operations.
A merge or a delete counts on what is under it, and has to come last. -/

namespace Dhava

open Foundations ConflictResolver LocalStore

variable {V : Type}

/-- Creates and updates replace all data; merges and deletes build on the row they find. -/
def Operation.BuildsOn (op : Operation V) : Prop := op.opType = .merge ∨ op.opType = .delete

/-- An operation with the record its call returned was issued before another one. -/
def IssuedBefore (a b : Operation V × Record V) : Prop :=
  VectorClock.ofDict a.1.vectorClock < VectorClock.ofDict b.1.vectorClock ∧
    a.1.timestamp < b.1.timestamp

/-- Each call returned what its operation makes of the record the call before it returned. -/
structure Journal (hist : List (Operation V × Record V)) : Prop where
  returned : ∀ pre p suf, hist = pre ++ p :: suf →
    p.2 = written (pre.getLast?.map Prod.snd) p.1
  order : hist.Pairwise IssuedBefore

namespace Journal

variable {hist : List (Operation V × Record V)} {done : Operation V → Prop}
  {row : Option (Record V)} {p q : Operation V × Record V}

theorem nil : Journal ([] : List (Operation V × Record V)) where
  returned := by intro pre p suf h; simp at h
  order := List.Pairwise.nil

theorem cases_mem (h : Journal hist) (hp : p ∈ hist) (hq : q ∈ hist) :
    q = p ∨ IssuedBefore q p ∨ IssuedBefore p q := by
  have hsymm : Std.Symm fun a b : Operation V × Record V => IssuedBefore a b ∨ IssuedBefore b a :=
    ⟨fun _ _ hab => hab.symm⟩
  have hcases : hist.Pairwise fun a b => IssuedBefore a b ∨ IssuedBefore b a :=
    h.order.imp fun hab => Or.inl hab
  by_cases he : q = p
  · exact Or.inl he
  · exact Or.inr (hcases.forall hq hp he)

theorem le_getLast (h : Journal hist) (hlast : hist.getLast? = some p) (hq : q ∈ hist) :
    VectorClock.ofDict q.1.vectorClock ≤ VectorClock.ofDict p.1.vectorClock := by
  obtain ⟨pre, rfl⟩ := List.getLast?_eq_some_iff.1 hlast
  rcases List.mem_append.1 hq with hpre | hself
  · have hbefore := (List.pairwise_append.1 h.order).2.2 q hpre p (List.mem_singleton_self _)
    exact hbefore.1.le
  · exact (List.mem_singleton.1 hself).symm ▸ le_rfl

/-- One more call at the end of the journal. -/
theorem concat (h : Journal hist) (hret : p.2 = written (hist.getLast?.map Prod.snd) p.1)
    (hlast : ∀ q ∈ hist, IssuedBefore q p) : Journal (hist ++ [p]) where
  returned := by
    intro pre b suf he
    rcases concat_eq_split_iff.1 he with ⟨rfl, rfl, -⟩ | ⟨suf', -, hhist⟩
    · exact hret
    · exact h.returned pre b suf' hhist
  order := by
    rw [List.pairwise_append]
    refine ⟨h.order, List.pairwise_singleton _ _, fun a ha b hb => ?_⟩
    obtain rfl := List.mem_singleton.1 hb
    exact hlast a ha

/-- The row stands where the writer stood after `p`, as far as a reader can tell. -/
def Reflects (row : Option (Record V)) (p : Operation V × Record V) : Prop :=
  baseData row = p.2.data ∧
    if p.1.opType = .delete then Gone row
    else ∃ r, row = some r ∧ r.deleted = false ∧ r.vectorClock = p.1.vectorClock

/-- The row stands where the writer stood after the last operation that is done. -/
def Agrees (hist : List (Operation V × Record V)) (done : Operation V → Prop)
    (row : Option (Record V)) : Prop :=
  ∃ pre suf, hist = pre ++ suf ∧ (∀ q ∈ suf, ¬ done q.1) ∧
    (pre = [] ∧ row = none ∨ ∃ l p, pre = l ++ [p] ∧ done p.1 ∧ Reflects row p)

/-- No merge and no delete is done before the operations issued before it. -/
def NoneOvertaken (hist : List (Operation V × Record V)) (done : Operation V → Prop) : Prop :=
  ∀ p ∈ hist, done p.1 → p.1.BuildsOn → ∀ q ∈ hist, IssuedBefore q p → done q.1

/-- The next operation in the order of the journal, on a row that stands where the writer
stood before it, or anywhere below it if the operation replaces all data. -/
theorem reflects_settle (self : ConflictResolver) {prev : Option (Record V)}
    (hret : p.2 = written prev p.1) (hbase : p.1.BuildsOn → baseData row = baseData prev)
    (hrow : Gone row ∨ ∃ r, row = some r ∧ r.deleted = false ∧
      VectorClock.ofDict r.vectorClock < VectorClock.ofDict p.1.vectorClock) :
    Reflects (self.settle row p.1) p := by
  have hdata : p.2.data = writtenData prev p.1 := by rw [hret, data_written]
  by_cases hdel : p.1.opType = .delete
  · have hbase := hbase (Or.inr hdel)
    have hsame : baseData row = p.2.data := by rw [hdata, writtenData, hdel, hbase]
    refine ⟨?_, ?_⟩
    · unfold settle
      split_ifs
      · rw [← hsame]
        simp [baseData, writtenData, hdel]
      · exact hsame
    · rw [if_pos hdel]
      rcases hrow with hgone | ⟨r, rfl, hlive, hlt⟩
      · have hacc : ¬ self.accepts row p.1 = true := fun hacc =>
          (self.accepts_gone hgone p.1).1 hacc hdel
        rw [settle, if_neg hacc]
        exact hgone
      · rw [settle, if_pos ((self.accepts_live hlive p.1).2 (Or.inl hlt))]
        exact gone_written _ hdel
  · have hacc : self.accepts row p.1 = true := by
      rcases hrow with hgone | ⟨r, rfl, hlive, hlt⟩
      · exact (self.accepts_gone hgone p.1).2 hdel
      · exact (self.accepts_live hlive p.1).2 (Or.inl hlt)
    rw [settle, if_pos hacc]
    refine ⟨?_, ?_⟩
    · rw [hdata]
      change writtenData row p.1 = _
      cases ht : p.1.opType with
      | create => simp [writtenData, ht]
      | update => simp [writtenData, ht]
      | merge => simp [writtenData, ht, hbase (Or.inl ht)]
      | delete => exact absurd ht hdel
    · rw [if_neg hdel]
      exact ⟨_, rfl, decide_eq_false hdel, rfl⟩

/-- An operation that was overtaken finds a live row above it, and is discarded. -/
theorem settle_overtaken (self : ConflictResolver) (hrow : Reflects row q)
    (hq : ¬ q.1.opType = .delete) (hpq : IssuedBefore p q) : self.settle row p.1 = row := by
  obtain ⟨-, hstand⟩ := hrow
  rw [if_neg hq] at hstand
  obtain ⟨r, rfl, hlive, hvc⟩ := hstand
  have hlt : VectorClock.ofDict p.1.vectorClock < VectorClock.ofDict r.vectorClock := hvc ▸ hpq.1
  have hacc : ¬ self.accepts (some r) p.1 = true := by
    rw [accepts_live self hlive]
    intro hcases
    rcases hcases with hgt | ⟨hconc, -⟩
    · exact lt_asymm hgt hlt
    · exact (VectorClock.compare_concurrent.1 hconc).2 hlt.le
  rw [settle, if_neg hacc]

/-- A row below an operation of the journal that is still to come. -/
theorem below_of_reflects (hrow : Reflects row q) (hqp : IssuedBefore q p) :
    Gone row ∨ ∃ r, row = some r ∧ r.deleted = false ∧
      VectorClock.ofDict r.vectorClock < VectorClock.ofDict p.1.vectorClock := by
  obtain ⟨-, hstand⟩ := hrow
  split_ifs at hstand with hdel
  · exact Or.inl hstand
  · obtain ⟨r, hr, hlive, hvc⟩ := hstand
    exact Or.inr ⟨r, hr, hlive, hvc.symm ▸ hqp.1⟩

theorem ne_of_before (h : IssuedBefore p q) : q.1 ≠ p.1 := by
  intro he
  have hlt := h.1
  rw [he] at hlt
  exact lt_irrefl _ hlt

/-- An earlier operation arrives late: the row stays where it is. -/
theorem agrees_late (self : ConflictResolver) {pre suf l : List (Operation V × Record V)}
    {last : Operation V × Record V} (h : Journal (pre ++ suf)) (hpre : pre = l ++ [last])
    (hover : NoneOvertaken (pre ++ suf) done) (hsuf : ∀ q ∈ suf, ¬ done q.1) (hlast : done last.1)
    (hrefl : Reflects row last) (hp : p ∈ pre) (hnew : ¬ done p.1) :
    Agrees (pre ++ suf) (fun o => done o ∨ o = p.1) (self.settle row p.1) := by
  obtain ⟨hord, -, hcross⟩ := List.pairwise_append.1 h.order
  subst hpre
  have hl : p ∈ l := by
    rcases List.mem_append.1 hp with hl | hl
    · exact hl
    · rw [List.mem_singleton.1 hl] at hnew
      exact absurd hlast hnew
  have hbefore : IssuedBefore p last :=
    (List.pairwise_append.1 hord).2.2 p hl last (List.mem_singleton_self _)
  -- a delete would not have been done before it
  have hdel : ¬ last.1.opType = .delete := fun hd =>
    hnew (hover last (by simp) hlast (Or.inr hd) p (List.mem_append_left _ hp) hbefore)
  rw [settle_overtaken self hrefl hdel hbefore]
  refine ⟨l ++ [last], suf, rfl, fun q hq hmore => ?_, Or.inr ⟨l, last, rfl, Or.inl hlast, hrefl⟩⟩
  rcases hmore with hd | he
  · exact hsuf q hq hd
  · exact ne_of_before (hcross p hp q hq) he

/-- A later operation arrives: the row goes where the writer stood after it. -/
theorem agrees_next (self : ConflictResolver) {pre suf : List (Operation V × Record V)}
    (h : Journal (pre ++ suf)) (hsuf : ∀ q ∈ suf, ¬ done q.1)
    (hpre : pre = [] ∧ row = none ∨ ∃ l q, pre = l ++ [q] ∧ done q.1 ∧ Reflects row q) (hp : p ∈ suf)
    (hready : p.1.BuildsOn → ∀ q ∈ pre ++ suf, IssuedBefore q p → done q.1) :
    Agrees (pre ++ suf) (fun o => done o ∨ o = p.1) (self.settle row p.1) := by
  obtain ⟨s₁, s₂, rfl⟩ := List.append_of_mem hp
  obtain ⟨-, hord, hcross⟩ := List.pairwise_append.1 h.order
  obtain ⟨-, hs₂, hs₁⟩ := List.pairwise_append.1 hord
  -- with a merge or a delete nothing lies between it and what is done
  have hnil : p.1.BuildsOn → s₁ = [] := by
    intro hb
    refine List.eq_nil_iff_forall_not_mem.2 fun q hq => ?_
    exact hsuf q (by simp [hq]) (hready hb q (by simp [hq]) (hs₁ q hq p (by simp)))
  have hret := h.returned (pre ++ s₁) p s₂ (by simp)
  refine ⟨pre ++ s₁ ++ [p], s₂, by simp, fun q hq hmore => ?_,
    Or.inr ⟨pre ++ s₁, p, rfl, Or.inr rfl, reflects_settle self hret ?_ ?_⟩⟩
  · rcases hmore with hd | he
    · exact hsuf q (by simp [hq]) hd
    · exact ne_of_before ((List.pairwise_cons.1 hs₂).1 q hq) he
  · intro hb
    rw [hnil hb, List.append_nil]
    rcases hpre with ⟨rfl, rfl⟩ | ⟨l, last, rfl, -, hrefl⟩
    · rfl
    · rw [List.getLast?_concat]
      exact hrefl.1
  · rcases hpre with ⟨rfl, rfl⟩ | ⟨l, last, rfl, -, hrefl⟩
    · exact Or.inl fun r hr => by cases hr
    · exact below_of_reflects hrefl (hcross last (by simp) p (by simp))

/-- One operation of the journal is taken in: the row agrees with one operation more. -/
theorem agrees_settle (self : ConflictResolver) (h : Journal hist) (hrow : Agrees hist done row)
    (hover : NoneOvertaken hist done) (hp : p ∈ hist) (hnew : ¬ done p.1)
    (hready : p.1.BuildsOn → ∀ q ∈ hist, IssuedBefore q p → done q.1) :
    Agrees hist (fun o => done o ∨ o = p.1) (self.settle row p.1) := by
  obtain ⟨pre, suf, rfl, hsuf, hpre⟩ := hrow
  rcases List.mem_append.1 hp with hin | hin
  · rcases hpre with ⟨rfl, -⟩ | ⟨l, last, hl, hlast, hrefl⟩
    · cases hin
    · exact agrees_late self h hl hover hsuf hlast hrefl hin hnew
  · exact agrees_next self h hsuf hpre hin hready

theorem noneOvertaken_insert (h : Journal hist) (hover : NoneOvertaken hist done) (hp : p ∈ hist)
    (hready : p.1.BuildsOn → ∀ q ∈ hist, IssuedBefore q p → done q.1) :
    NoneOvertaken hist fun o => done o ∨ o = p.1 := by
  intro b hb hmore hbuilds q hq hqb
  rcases hmore with hd | he
  · exact Or.inl (hover b hb hd hbuilds q hq hqb)
  · -- clocks tell the operations of the journal apart
    rcases h.cases_mem hp hb with rfl | hbp | hpb
    · exact Or.inl (hready hbuilds q hq hqb)
    · exact absurd (he ▸ hbp.1) (lt_irrefl _)
    · exact absurd (he ▸ hpb.1) (lt_irrefl _)

/-- Where the whole journal is done, the row stands where the writer stands. -/
theorem agrees_all (h : Agrees hist done row) (hall : ∀ p ∈ hist, done p.1) :
    hist = [] ∧ row = none ∨ ∃ p, hist.getLast? = some p ∧ Reflects row p := by
  obtain ⟨pre, suf, rfl, hsuf, hpre⟩ := h
  obtain rfl : suf = [] := List.eq_nil_iff_forall_not_mem.2 fun q hq =>
    hsuf q hq (hall q (by simp [hq]))
  rcases hpre with ⟨rfl, hrow⟩ | ⟨l, p, rfl, -, hrefl⟩
  · exact Or.inl ⟨rfl, hrow⟩
  · exact Or.inr ⟨p, by simp, hrefl⟩

/-- Only what is done of the journal matters. -/
theorem Agrees.congr {done' : Operation V → Prop} (h : Agrees hist done row)
    (hdone : ∀ p ∈ hist, done' p.1 ↔ done p.1) : Agrees hist done' row := by
  obtain ⟨pre, suf, rfl, hsuf, hpre⟩ := h
  refine ⟨pre, suf, rfl, fun q hq hd => hsuf q hq ((hdone q (by simp [hq])).1 hd), ?_⟩
  rcases hpre with hnil | ⟨l, p, rfl, hd, hrefl⟩
  · exact Or.inl hnil
  · exact Or.inr ⟨l, p, rfl, (hdone p (by simp)).2 hd, hrefl⟩

theorem NoneOvertaken.congr {done' : Operation V → Prop} (h : NoneOvertaken hist done)
    (hdone : ∀ p ∈ hist, done' p.1 ↔ done p.1) : NoneOvertaken hist done' := by
  intro p hp hd hb q hq hqp
  exact (hdone q hq).2 (h p hp ((hdone p hp).1 hd) hb q hq hqp)

/-- A new call leaves the row where it was. -/
theorem Agrees.concat (h : Agrees hist done row) (hp : ¬ done p.1) : Agrees (hist ++ [p]) done row := by
  obtain ⟨pre, suf, rfl, hsuf, hpre⟩ := h
  refine ⟨pre, suf ++ [p], by simp, fun q hq => ?_, hpre⟩
  rcases List.mem_append.1 hq with hq | hq
  · exact hsuf q hq
  · rwa [List.mem_singleton.1 hq]

theorem NoneOvertaken.concat (h : NoneOvertaken hist done) (hp : ¬ done p.1)
    (hlast : ∀ q ∈ hist, IssuedBefore q p) : NoneOvertaken (hist ++ [p]) done := by
  intro b hb hd hbuilds q hq hqb
  rcases List.mem_append.1 hb with hold | hnew
  · rcases List.mem_append.1 hq with hqold | hqnew
    · exact h b hold hd hbuilds q hqold hqb
    · rw [List.mem_singleton.1 hqnew] at hqb
      exact absurd hqb.1 (lt_asymm (hlast b hold).1)
  · rw [List.mem_singleton.1 hnew] at hd
    exact absurd hd hp

end Journal
end Dhava
