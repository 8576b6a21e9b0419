import Dhava.Spec.AuditLog
import Mathlib.Data.List.Sort

/-! What an export shows. The table holds what the `log` calls of a run returned, and a reader
of the CSV text finds the newest of these, one row each, whatever text they carry. -/

namespace Dhava

open Foundations

namespace AuditLogger

variable {D : Type} (json : AuditJson D)

/-- The entries the calls of a run return; a call that raises returns none. -/
def returned (nodeId : String) (calls : List (LogCall D)) : List (AuditRecord D) :=
  (outputs (fun a c => (log json a c).1) (fun a c => (log json a c).2) (empty nodeId)
    calls).filterMap Except.toOption

/-- The logger after the calls of a run. -/
def after (nodeId : String) (calls : List (LogCall D)) : AuditLogger :=
  replay (fun a c => (log json a c).1) (empty nodeId) calls

/-- The row an entry is stored in. -/
def row (e : AuditRecord D) : AuditRecord String := e.withDetails (json.dumps e.details)

theorem log_cases (a : AuditLogger) (c : LogCall D) :
    ((log json a c).1 = a ∧ ∃ exc, (log json a c).2 = .error exc) ∨
      ∃ entry, (log json a c).2 = .ok entry ∧
        (log json a c).1.auditLog.rows = a.auditLog.rows ++ [row json entry] := by
  unfold log
  dsimp only
  split
  · exact .inl ⟨rfl, _, rfl⟩
  · rename_i t h
    exact .inr ⟨_, rfl, (Keyed.insert?_rows h).2⟩

theorem rows_after (nodeId : String) (calls : List (LogCall D)) :
    (after json nodeId calls).auditLog.rows = (returned json nodeId calls).map (row json) := by
  induction calls using List.reverseRecOn with
  | nil => rfl
  | append_singleton calls c ih =>
    unfold after returned at ih ⊢
    rw [replay_concat, outputs_concat, List.filterMap_append, List.map_append, ← ih]
    rcases log_cases json (after json nodeId calls) c with ⟨hsame, exc, herr⟩ | ⟨e, hok, hrows⟩
    · unfold after at hsame herr
      rw [hsame, List.filterMap_cons_none (by rw [herr]; rfl), List.filterMap_nil, List.map_nil,
        List.append_nil]
    · unfold after at hok hrows
      rw [hrows, List.filterMap_cons_some (by rw [hok]; rfl), List.filterMap_nil, List.map_singleton]

/-- The rows a filter selects after a run, as entries. -/
theorem selected_after (nodeId : String) (calls : List (LogCall D)) (f : AuditFilter) :
    ((after json nodeId calls).auditLog.rows.filter fun r => r.meets f).map (rowToEntry json) =
      ((returned json nodeId calls).filter fun e => e.meets f).map (AuditRecord.reread json) := by
  rw [rows_after, List.filter_map, List.map_map]
  rfl

theorem count_after (nodeId : String) (calls : List (LogCall D)) (startTime endTime : Option ℚ) :
    (after json nodeId calls).count none startTime endTime =
      ((returned json nodeId calls).filter fun e => e.meets ⟨none, startTime, endTime, none⟩).length := by
  have h := congrArg List.length
    (selected_after json nodeId calls ⟨none, startTime, endTime, none⟩)
  rwa [List.length_map, List.length_map] at h

/-- `shown` is the `n` newest of `kept`, newest first, each once. -/
structure Newest (n : ℕ) (kept shown : List (AuditRecord D)) : Prop where
  length : shown.length = min n kept.length
  sorted : shown.Pairwise fun a b => b.timestamp ≤ a.timestamp
  rest : ∃ older, (shown ++ older).Perm kept ∧ ∀ a ∈ shown, ∀ b ∈ older, b.timestamp ≤ a.timestamp

theorem newest_query (order : NewestFirst) (nodeId : String) (calls : List (LogCall D))
    (f : AuditFilter) (limit : ℕ) :
    Newest limit
      (((returned json nodeId calls).filter fun e => e.meets f).map (AuditRecord.reread json))
      ((after json nodeId calls).query json order f limit) := by
  set rows := (after json nodeId calls).auditLog.rows.filter fun r => r.meets f with hrows
  have hkept : rows.map (rowToEntry json) =
      ((returned json nodeId calls).filter fun e => e.meets f).map (AuditRecord.reread json) :=
    selected_after json nodeId calls f
  have hquery : (after json nodeId calls).query json order f limit =
      ((order.sort rows).take limit).map (rowToEntry json) := rfl
  have hsplit := List.pairwise_append.1
    ((List.take_append_drop limit (order.sort rows)).symm ▸ order.sorted rows)
  rw [← hkept, hquery]
  constructor
  · rw [List.length_map, List.length_map, List.length_take, (order.perm rows).length_eq]
  · exact List.pairwise_map.2 hsplit.1
  · refine ⟨((order.sort rows).drop limit).map (rowToEntry json), ?_, ?_⟩
    · rw [← List.map_append, List.take_append_drop]
      exact (order.perm rows).map _
    · rintro _ ha _ hb
      obtain ⟨a, ha', rfl⟩ := List.mem_map.1 ha
      obtain ⟨b, hb', rfl⟩ := List.mem_map.1 hb
      exact hsplit.2.2 a ha' b hb'

/-- The rows a reader finds in a text. -/
def readBack (text : String) : List (List String) :=
  (Csv.read text.toList).map (List.map String.ofList)

theorem readBack_write (rows : List (List String)) :
    readBack (String.ofList (Csv.write (rows.map (List.map String.toList)))) = rows := by
  unfold readBack
  rw [String.toList_ofList, Csv.read_write, List.map_map]
  simp [Function.comp_def]

theorem exportTrail_csv (order : NewestFirst) (str : ℚ → String) (a : AuditLogger)
    (startTime endTime : Option ℚ) {format : String} (hformat : format.toLower = "csv") :
    a.exportTrail json order str startTime endTime format =
      .ok (String.ofList (Csv.write ((header ::
        (a.query json order ⟨none, startTime, endTime, none⟩ exportLimit).map
          (AuditRecord.cells json str)).map (List.map String.toList)))) := by
  have hjson : ¬ format.toLower = "json" := by
    rw [hformat]
    decide
  unfold exportTrail
  dsimp only
  rw [if_neg hjson, if_pos hformat]

/-- Whatever was logged, by calls that went through and calls that raised: an export in CSV
reads back as the header and a row of cells for each of the newest million entries that were
returned with a timestamp in the window; no text in them breaks a cell or a row. `count` of
the window is their number where that is below the million. -/
theorem export_reads_back (order : NewestFirst) (str : ℚ → String) (nodeId : String)
    (calls : List (LogCall D)) (startTime endTime : Option ℚ) {format : String}
    (hformat : format.toLower = "csv") :
    ∃ text shown, (after json nodeId calls).exportTrail json order str startTime endTime format =
        .ok text ∧
      readBack text = header :: shown.map (AuditRecord.cells json str) ∧
      Newest exportLimit
        (((returned json nodeId calls).filter fun e =>
          e.meets ⟨none, startTime, endTime, none⟩).map (AuditRecord.reread json)) shown ∧
      shown.length = min exportLimit ((after json nodeId calls).count none startTime endTime) := by
  have hnewest := newest_query json order nodeId calls ⟨none, startTime, endTime, none⟩ exportLimit
  refine ⟨_, _, exportTrail_csv json order str _ startTime endTime hformat, readBack_write _,
    hnewest, ?_⟩
  rw [hnewest.length, List.length_map, count_after]

/-- A database that keeps rows of one timestamp in table order. -/
def inTableOrder : NewestFirst where
  sort rows := rows.insertionSort fun a b => b.timestamp ≤ a.timestamp
  perm rows := List.perm_insertionSort _ rows
  sorted rows :=
    have : IsTrans (AuditRecord String) fun a b => b.timestamp ≤ a.timestamp :=
      ⟨fun _ _ _ h h' => h'.trans h⟩
    have : Std.Total fun a b : AuditRecord String => b.timestamp ≤ a.timestamp :=
      ⟨fun a b => le_total b.timestamp a.timestamp⟩
    List.pairwise_insertionSort _ rows

/-- A user id that tries to start a row of its own, and a taken id. -/
theorem export_reads_back_example :
    let json : AuditJson String := ⟨id, id, fun _ => "[]"⟩
    let calls : List (LogCall String) :=
      [⟨"a1", 5, "local_write", "d,\"1\"", some "u\r\nx,9", none, none⟩,
        ⟨"a1", 6, "sync_push", "d2", none, none, none⟩,
        ⟨"a2", 7, "sync_push", "d3", none, none, some 9⟩]
    ∃ text shown, (after json "n" calls).exportTrail json inTableOrder (fun _ => "0") (some 1) none
        "CSV" = .ok text ∧
      readBack text = header :: shown.map (AuditRecord.cells json fun _ => "0") ∧
      Newest exportLimit
        (((returned json "n" calls).filter fun e =>
          e.meets ⟨none, some 1, none, none⟩).map (AuditRecord.reread json)) shown ∧
      shown.length = min exportLimit ((after json "n" calls).count none (some 1) none) :=
  export_reads_back _ _ _ _ _ _ _ (by decide +kernel)

end AuditLogger
end Dhava
