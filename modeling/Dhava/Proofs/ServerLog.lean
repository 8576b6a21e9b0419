import Dhava.Foundations.Contest
import Dhava.Proofs.Redelivery
import Dhava.Spec.ServerProcess

/-! The server against its log, the operations it has completed in order. A row is a title that
the operations on the record contest one after the other, so whatever was acknowledged is still
there, or gave way to something that the conflict rules put above it. -/

namespace Dhava

open Foundations

variable {V : Type}

instance : DecidableLT VectorClock := fun a b =>
  decidable_of_iff (a ≤ b ∧ ¬ b ≤ a) lt_iff_le_not_ge.symm

instance (plus : RoundedSum) (tolerance : ℚ) :
    DecidableRel (Operation.Supersedes (V := V) plus tolerance) := fun q o =>
  if h : o.opType = .delete then
    decidable_of_iff (q.opType ≠ .delete) (iff_of_eq (if_pos h).symm)
  else
    decidable_of_iff (VectorClock.ofDict o.vectorClock < VectorClock.ofDict q.vectorClock ∨
      (o.Concurrent q ∧ q.BeatsLww plus tolerance o)) (iff_of_eq (if_neg h).symm)

namespace ConflictResolver

variable (self : ConflictResolver)

/-- The operations that contest a record: until there is a record a delete does nothing. -/
def contenders (ops : List (Operation V)) (key : Key) : List (Operation V) :=
  (ops.filter fun op => op.key = key).dropWhile fun op => op.opType = .delete

theorem contenders_append (done ops : List (Operation V)) (key : Key) :
    contenders (done ++ ops) key =
      if contenders done key = [] then contenders ops key
      else contenders done key ++ ops.filter fun op => op.key = key := by
  unfold contenders
  rw [List.filter_append, List.dropWhile_append]
  simp only [List.isEmpty_iff]

/-- The row of the operation that holds the title. -/
def RowOf (row : Option (Record V)) : Option (Operation V) → Prop
  | none => row = none
  | some op => ∃ existing, row = some (LocalStore.written existing op)

theorem rowOf_settle {row : Option (Record V)} {held : Option (Operation V)} (h : RowOf row held)
    {op : Operation V} (hop : held = none → op.opType ≠ .delete) :
    RowOf (self.settle row op)
      (challenge (Operation.Supersedes self.plus self.clockSkewTolerance) held op) := by
  cases held with
  | none =>
    rw [show row = none from h]
    exact ⟨none, if_pos ((self.accepts_none op).2 (hop rfl))⟩
  | some o =>
    obtain ⟨existing, rfl⟩ := h
    have hacc := self.accepts_written existing o op
    unfold settle challenge
    simp only
    by_cases hsup : op.Supersedes self.plus self.clockSkewTolerance o
    · rw [if_pos (hacc.2 hsup), if_pos hsup]
      exact ⟨_, rfl⟩
    · rw [if_neg (fun h => hsup (hacc.1 h)), if_neg hsup]
      exact ⟨existing, rfl⟩

/-- A row that starts from nothing belongs to the champion of the contenders. -/
theorem rowOf_champion (ops : List (Operation V)) :
    RowOf (ops.foldl self.settle none)
      (champion (Operation.Supersedes self.plus self.clockSkewTolerance)
        (ops.dropWhile fun op => op.opType = .delete)) := by
  have hrest : ∀ (ops : List (Operation V)) (row : Option (Record V)) held, RowOf row held →
      held ≠ none → RowOf (ops.foldl self.settle row)
        (ops.foldl (challenge (Operation.Supersedes self.plus self.clockSkewTolerance)) held) := by
    intro ops
    induction ops with
    | nil => exact fun _ _ h _ => h
    | cons op rest ih =>
      intro row held h hheld
      refine ih _ _ (self.rowOf_settle h fun hnone => absurd hnone hheld) ?_
      obtain ⟨w, hw⟩ : ∃ w,
          challenge (Operation.Supersedes self.plus self.clockSkewTolerance) held op = some w :=
        challenge_isSome held op
      rw [hw]
      exact Option.some_ne_none w
  induction ops with
  | nil => rfl
  | cons op rest ih =>
    by_cases hdelete : op.opType = .delete
    · have hskip : self.settle none op = none :=
        if_neg fun hacc => (self.accepts_none op).1 hacc hdelete
      have hdrop : (op :: rest).dropWhile (fun op => decide (op.opType = .delete)) =
          rest.dropWhile fun op => decide (op.opType = .delete) := by
        rw [List.dropWhile_cons, if_pos (decide_eq_true hdelete)]
      rw [List.foldl_cons, hskip, hdrop]
      exact ih
    · have hstart : RowOf (none : Option (Record V)) none := rfl
      rw [List.dropWhile_cons, if_neg (by simpa using hdelete)]
      exact hrest rest _ (some op) (self.rowOf_settle hstart fun _ => hdelete)
        (Option.some_ne_none op)

end ConflictResolver

namespace Server

/-- The operations an event completes. -/
def completed (srv : Server V) : ServerEvent V → List (Operation V)
  | .call (.request faults _ req) => srv.completedBy faults req
  | _ => []

/-- What a run has completed, in order. -/
def log (srv : Server V) (evs : List (ServerEvent V)) : List (Operation V) :=
  (outputs step completed srv evs).flatten

theorem localStore_handleSyncRequest (srv : Server V) (faults : ℕ → Option Fault) (now : Readings)
    (req : SyncPushRequest V) : (srv.handleSyncRequest faults now req).1.localStore =
      (srv.completedBy faults req).foldl srv.conflictResolver.process srv.localStore := by
  have hrefuses : (srv.config.nodeRegistrationRequired && (srv.getNodeStatus req.nodeId).isNone) =
      srv.refuses req.nodeId := rfl
  unfold completedBy
  rw [hrefuses]
  rcases srv.handleSyncRequest_ends faults now req with
    ⟨error, hresult, hnothing⟩ | ⟨dicts, hpasses, hunpack, ⟨exc, error, -, hresult⟩ | ⟨-, hresult⟩⟩
  · rw [hresult]
    split_ifs with hrefused
    · rfl
    · cases hunpack : unpackRequest req with
      | error exc => rfl
      | ok dicts => exact absurd hunpack (hnothing dicts (Bool.eq_false_iff.2 hrefused))
  · rw [hresult, hpasses, hunpack]
    exact (srv.pushLoop_frame faults dicts).2.2
  · rw [hresult, hpasses, hunpack]
    exact (srv.pushLoop_frame faults dicts).2.2

theorem resolver_step (srv : Server V) (ev : ServerEvent V) :
    (srv.step ev).conflictResolver = srv.conflictResolver := by
  rcases ev with ((c | ⟨faults, now, req⟩) | -)
  · rfl
  · change (srv.handleSyncRequest faults now req).1.conflictResolver = srv.conflictResolver
    rcases srv.handleSyncRequest_ends faults now req with
      ⟨error, hresult, -⟩ | ⟨dicts, -, -, ⟨exc, error, -, hresult⟩ | ⟨-, hresult⟩⟩
    · rw [hresult]
    · rw [hresult]
      exact resolver_of_identity (srv.pushLoop_frame faults dicts).1
    · rw [hresult]
      exact resolver_of_identity (srv.pushLoop_frame faults dicts).1
  · rfl

/-- The records are what the log makes of the records before it. -/
theorem localStore_log (srv : Server V) (evs : List (ServerEvent V)) :
    (replay step srv evs).localStore =
      (srv.log evs).foldl srv.conflictResolver.process srv.localStore := by
  induction evs generalizing srv with
  | nil => rfl
  | cons ev rest ih =>
    have hone : (srv.step ev).localStore =
        (srv.completed ev).foldl srv.conflictResolver.process srv.localStore := by
      rcases ev with ((c | ⟨faults, now, req⟩) | -)
      · rfl
      · exact srv.localStore_handleSyncRequest faults now req
      · rfl
    have hlog : srv.log (ev :: rest) = srv.completed ev ++ (srv.step ev).log rest := rfl
    rw [hlog, List.foldl_append, ← hone, ← srv.resolver_step ev]
    exact ih (srv.step ev)

/-- Whatever requests and restarts a new server has been through, a record has come down from one
completed operation to the next, each superseding the one before, and shows the last of them.
Every other operation on it met the record of one of these and did not supersede it, or was a
delete before there was a record. -/
theorem records_explained (serverNodeId : String) (resolver : ConflictResolver)
    (config : ServerConfig) (evs : List (ServerEvent V)) (key : Key) :
    let srv : Server V := new serverNodeId resolver config
    let supersedes := Operation.Supersedes (V := V) resolver.plus resolver.clockSkewTolerance
    let stored (done : List (Operation V)) := (done.foldl resolver.process srv.localStore).get key true
    ∃ holders : List (Operation V),
      holders.Sublist ((srv.log evs).filter (·.key = key)) ∧
        holders.IsChain (fun a b => supersedes b a) ∧
        ConflictResolver.RowOf ((replay step srv evs).localStore.get key true) holders.getLast? ∧
        ∀ done op rest, srv.log evs = done ++ op :: rest → op.key = key →
          ∃ past, past <+: holders ∧ ConflictResolver.RowOf (stored done) past.getLast? ∧
            (past ++ [op] <+: holders ∨ (past = [] ∧ op.opType = .delete) ∨
              ∃ earlier ∈ past.getLast?, ¬ supersedes op earlier) := by
  intro srv supersedes stored
  have hstored : ∀ done, ConflictResolver.RowOf (stored done)
      (reigns supersedes (ConflictResolver.contenders done key)).getLast? := by
    intro done
    have hfold : stored done = (done.filter (·.key = key)).foldl resolver.settle none :=
      resolver.get_foldl_process_filter key done srv.localStore
    rw [hfold, getLast?_reigns]
    exact resolver.rowOf_champion _
  refine ⟨reigns supersedes (ConflictResolver.contenders (srv.log evs) key),
    (reigns_sublist _).trans (List.dropWhile_sublist _), isChain_reigns _, ?_, ?_⟩
  · rw [localStore_log]
    exact hstored (srv.log evs)
  · intro done op rest hlog hkey
    have hsplit := ConflictResolver.contenders_append done (op :: rest) key
    have hfilter : (op :: rest).filter (·.key = key) = op :: rest.filter (·.key = key) :=
      List.filter_cons_of_pos (decide_eq_true hkey)
    have hstored := hstored done
    rw [hlog, hsplit]
    -- the operation finds a record, or there has been nothing but deletes
    generalize ConflictResolver.contenders done key = before at hstored ⊢
    refine ⟨reigns supersedes before, ?_, hstored, ?_⟩
    · split_ifs with hnone
      · rw [hnone]
        exact List.nil_prefix
      · exact reigns_prefix _ _ _
    · split_ifs with hnone
      · subst hnone
        by_cases hdelete : op.opType = .delete
        · exact Or.inr (Or.inl ⟨rfl, hdelete⟩)
        · rw [ConflictResolver.contenders, hfilter,
            List.dropWhile_cons_of_neg (by simpa using hdelete)]
          exact (reigns_next [] op _).imp_right Or.inr
      · rw [hfilter]
        exact (reigns_next before op _).imp_right Or.inr

end Server
end Dhava
