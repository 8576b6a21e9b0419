import Dhava.Foundations.Attempt
import Dhava.Proofs.Persistence
import Dhava.Spec.Records

/-! The record that `apply_operation` returns is the one in the table. Both are `written` of
the record before, the returned one as it is and the stored one as a row. -/

namespace Dhava

open Foundations

namespace RecordsTable

variable {V : Type} {json : RecordJson V}

/-- The row a record is written as. -/
def rowOf (json : RecordJson V) (r : Record V) : RecordRow where
  collection := r.collection
  recordId := r.recordId
  data := json.data.dumps r.data
  version := r.version
  vectorClock := json.vectorClock.dumps r.vectorClock
  lastModified := r.lastModified
  lastModifiedBy := r.lastModifiedBy
  deleted := if r.deleted then 1 else 0
  deletedAt := r.deletedAt

/-- The statement for a record: which of the two it is depends on the tombstone. -/
def upsertRecord (table : RecordsTable) (json : RecordJson V) (r : Record V) : RecordsTable :=
  if r.deleted then table.upsertDeleted (rowOf json r) else table.upsertLive (rowOf json r)

theorem bindInteger_then {α : Type} {n : ℤ} {a b : α} :
    (SqlValue.bindInteger n >>= fun _ => Except.ok a) = .ok b ↔ SqlValue.fitsInteger n = true ∧ b = a := by
  unfold SqlValue.bindInteger
  split_ifs with h
  · rw [ok_bind, Except.ok.injEq, and_iff_right h, eq_comm]
  · exact iff_of_false (fun he => by cases he) fun he => h he.1

theorem written_live {existing : Option (Record V)} {op : Operation V} (ht : op.opType ≠ .delete) :
    LocalStore.written existing op =
      { recordId := op.recordId, collection := op.collection
        data := LocalStore.writtenData existing op
        version := LocalStore.nextVersion existing op, vectorClock := op.vectorClock
        lastModified := op.timestamp, lastModifiedBy := op.nodeId
        deleted := false, deletedAt := none } := by
  unfold LocalStore.written
  rw [decide_eq_false ht, if_neg ht]

theorem written_delete {existing : Option (Record V)} {op : Operation V} (ht : op.opType = .delete) :
    LocalStore.written existing op =
      { recordId := op.recordId, collection := op.collection, data := LocalStore.baseData existing
        version := LocalStore.nextVersion existing op, vectorClock := op.vectorClock
        lastModified := op.timestamp, lastModifiedBy := op.nodeId
        deleted := true, deletedAt := some op.timestamp } := by
  unfold LocalStore.written LocalStore.writtenData
  rw [ht, decide_eq_true rfl, if_pos rfl]

theorem applyLive_eq_ok {table table' : RecordsTable} {op : Operation V} {record : Record V}
    {dataOf : Option (Record V) → Dict String V} (ht : op.opType ≠ .delete)
    (hdata : ∀ existing, dataOf existing = LocalStore.writtenData existing op) :
    table.applyLive json op dataOf = .ok (table', record) ↔
      ∃ existing, table.get json op.key true = .ok existing ∧
        SqlValue.fitsInteger (LocalStore.nextVersion existing op) = true ∧
        record = LocalStore.written existing op ∧ table' = table.upsertRecord json record := by
  unfold applyLive
  rw [bind_eq_ok]
  refine exists_congr fun existing => and_congr_right fun _ => ?_
  rw [written_live ht, ← hdata existing]
  refine bindInteger_then.trans (and_congr_right fun _ => ?_)
  constructor
  · intro h
    obtain ⟨rfl, rfl⟩ := Prod.mk.inj h
    exact ⟨rfl, rfl⟩
  · rintro ⟨rfl, rfl⟩
    rfl

theorem applyDelete_eq_ok {table table' : RecordsTable} {op : Operation V} {record : Record V}
    (ht : op.opType = .delete) :
    table.applyDelete json op = .ok (table', record) ↔
      ∃ existing, table.get json op.key true = .ok existing ∧
        SqlValue.fitsInteger (LocalStore.nextVersion existing op) = true ∧
        record = LocalStore.written existing op ∧ table' = table.upsertRecord json record := by
  unfold applyDelete
  rw [bind_eq_ok]
  refine exists_congr fun existing => and_congr_right fun _ => ?_
  rw [written_delete ht]
  refine bindInteger_then.trans (and_congr_right fun _ => ?_)
  constructor
  · intro h
    obtain ⟨rfl, rfl⟩ := Prod.mk.inj h
    exact ⟨rfl, rfl⟩
  · rintro ⟨rfl, rfl⟩
    rfl

/-- What an operation returns and what it writes, and when it gets there. -/
theorem applyOperation_eq_ok {table table' : RecordsTable} {op : Operation V} {record : Record V} :
    table.applyOperation json op = .ok (table', record) ↔
      ∃ existing, table.get json op.key true = .ok existing ∧
        SqlValue.fitsInteger (LocalStore.nextVersion existing op) = true ∧
        record = LocalStore.written existing op ∧ table' = table.upsertRecord json record := by
  unfold applyOperation
  cases ht : op.opType with
  | create => exact applyLive_eq_ok (by rw [ht]; decide) fun _ => by rw [LocalStore.writtenData, ht]
  | update => exact applyLive_eq_ok (by rw [ht]; decide) fun _ => by rw [LocalStore.writtenData, ht]
  | merge => exact applyLive_eq_ok (by rw [ht]; decide) fun _ => by rw [LocalStore.writtenData, ht]
  | delete => exact applyDelete_eq_ok ht

/-! ### Rows -/

/-- A row with the columns of a record and a text for its data reads back as the record. -/
theorem rowToRecord_rowOf {r : Record V} {text : String} (hdata : json.data.loads text = .ok r.data)
    (hclock : json.vectorClock.RoundTrips r.vectorClock) :
    rowToRecord json { rowOf json r with data := text } = .ok r := by
  refine bind_eq_ok.2 ⟨r.data, hdata, bind_eq_ok.2 ⟨r.vectorClock, hclock, congrArg Except.ok ?_⟩⟩
  obtain ⟨recordId, collection, data, version, vectorClock, lastModified, lastModifiedBy, deleted, deletedAt⟩ := r
  cases deleted <;> rfl

/-- The data column of a row that reads back. -/
theorem loads_data {row : RecordRow} {r : Record V} (h : rowToRecord json row = .ok r) :
    json.data.loads row.data = .ok r.data := by
  obtain ⟨data, hdata, h⟩ := bind_eq_ok.1 h
  obtain ⟨vc, -, h⟩ := bind_eq_ok.1 h
  obtain rfl := Except.ok.inj h
  exact hdata

theorem get_eq_ok {table : RecordsTable} {key : Key} {existing : Option (Record V)} :
    table.get json key true = .ok existing ↔
      (table.find? key = none ∧ existing = none) ∨
        ∃ row r, table.find? key = some row ∧ existing = some r ∧ rowToRecord json row = .ok r := by
  unfold get
  cases table.find? key with
  | none => simp [eq_comm]
  | some row =>
    simp only [Bool.not_true, Bool.and_false]
    rw [bind_eq_ok]
    constructor
    · rintro ⟨r, hr, h⟩
      exact .inr ⟨row, r, rfl, (Except.ok.inj h).symm, hr⟩
    · rintro (⟨h, -⟩ | ⟨row, r, h, rfl, hr⟩)
      · cases h
      · cases h
        exact ⟨r, hr, rfl⟩

/-- The row that is found after the statement has everything of the record: the data column
of a tombstone is still the one of the row before. -/
theorem find?_upsertRecord {table : RecordsTable} {r : Record V} {existing : Option (Record V)}
    (hget : table.get json r.key true = .ok existing) (hdata : json.data.RoundTrips r.data)
    (hclock : json.vectorClock.RoundTrips r.vectorClock)
    (hlive : r.deleted = false → r.deletedAt = none)
    (hkept : r.deleted = true → ∀ e, existing = some e → r.data = e.data) :
    ∃ row, rowToRecord json row = .ok r ∧ ∀ key,
      (table.upsertRecord json r).find? key = if key = r.key then some row else table.find? key := by
  unfold upsertRecord
  cases hdeleted : r.deleted with
  | false =>
    refine ⟨rowOf json r, rowToRecord_rowOf hdata hclock, fun key => ?_⟩
    refine Keyed.find?_upsert_eq _ rfl (fun stored hkey _ => ?_) key
    obtain ⟨h1, h2⟩ := Prod.mk.inj hkey
    simp only [h1, h2, rowOf, hdeleted, hlive hdeleted]
    rfl
  | true =>
    rcases get_eq_ok.1 hget with ⟨hnone, -⟩ | ⟨stored, e, hsome, he, hread⟩
    · refine ⟨rowOf json r, rowToRecord_rowOf hdata hclock, fun key => ?_⟩
      refine Keyed.find?_upsert_eq _ rfl (fun stored _ hsome => ?_) key
      rw [show (rowOf json r).key = r.key from rfl, hnone] at hsome
      cases hsome
    · have hcolumn : json.data.loads stored.data = .ok r.data := by
        rw [hkept hdeleted e he]
        exact loads_data hread
      refine ⟨{ rowOf json r with data := stored.data }, rowToRecord_rowOf hcolumn hclock, fun key => ?_⟩
      have hkey : (rowOf json r).key = r.key := rfl
      refine (Keyed.find?_upsert _ _ _ _ key).trans ?_
      rw [hkey, hsome, Option.elim_some]
      obtain ⟨h1, h2⟩ := Prod.mk.inj ((Keyed.find?_eq_some _).1 hsome).2
      simp only [h1, h2, rowOf, hdeleted, if_pos]

/-- For every table and operation, where JSON round-trips what is written: a call returns unless
the row under its key does not read back or the version is no 64-bit integer. What it returns is
what `get` reads then, with the data of its type and a higher version, and the other rows stay. -/
theorem apply_operation_returns_stored (json : RecordJson V) (table : RecordsTable) (op : Operation V)
    (hclock : json.vectorClock.RoundTrips op.vectorClock)
    (hdata : ∀ existing, table.get json op.key true = .ok existing →
      json.data.RoundTrips (LocalStore.writtenData existing op)) :
    ((∃ table' record, table.applyOperation json op = .ok (table', record)) ↔
        ∃ existing, table.get json op.key true = .ok existing ∧
          SqlValue.fitsInteger (LocalStore.nextVersion existing op) = true) ∧
      ∀ table' record, table.applyOperation json op = .ok (table', record) →
        ∃ existing, table.get json op.key true = .ok existing ∧
          table'.get json op.key true = .ok (some record) ∧
          (∀ r, existing = some r → r.version < record.version) ∧
          record.data = LocalStore.writtenData existing op ∧
          ∀ key, key ≠ op.key → table'.find? key = table.find? key := by
  constructor
  · constructor
    · rintro ⟨table', record, h⟩
      obtain ⟨existing, hget, hfits, -, -⟩ := applyOperation_eq_ok.1 h
      exact ⟨existing, hget, hfits⟩
    · rintro ⟨existing, hget, hfits⟩
      exact ⟨_, _, applyOperation_eq_ok.2 ⟨existing, hget, hfits, rfl, rfl⟩⟩
  · intro table' record h
    obtain ⟨existing, hget, -, rfl, rfl⟩ := applyOperation_eq_ok.1 h
    obtain ⟨row, hread, hfind⟩ := find?_upsertRecord (r := LocalStore.written existing op) hget
      (hdata existing hget) hclock (fun hlive => if_neg (of_decide_eq_false hlive))
      (fun hdelete e he => by
        have ht : op.opType = .delete := of_decide_eq_true hdelete
        rw [LocalStore.data_written, LocalStore.writtenData, ht, he]
        rfl)
    refine ⟨existing, hget, ?_, ?_, rfl, fun key hkey => (hfind key).trans (if_neg hkey)⟩
    · exact get_eq_ok.2 (.inr ⟨row, _, (hfind op.key).trans (if_pos rfl), rfl, hread⟩)
    · rintro r rfl
      exact lt_add_one r.version

/-- The JSON texts of the dictionaries in the example below. -/
def sampleJson : RecordJson ℤ :=
  let pulse := (∅ : Dict String ℤ).insert "pulse" 80
  let texts : List (Dict String ℤ × String) :=
    [(∅, "\x7b\x7d"), (pulse, "\x7b\"pulse\": 80\x7d"),
      (pulse.insert "triage" 2, "\x7b\"pulse\": 80, \"triage\": 2\x7d")]
  let codec : JsonCodec ℤ :=
    { dumps := fun d => ((texts.find? fun t => t.1 = d).map Prod.snd).getD ""
      loads := fun s =>
        match texts.find? fun t => t.2 = s with
        | some t => .ok t.1
        | none => .error "Expecting value: line 1 column 1 (char 0)" }
  { data := codec, vectorClock := codec }

theorem apply_operation_returns_stored_merge :
    let row : RecordRow :=
      { collection := "casualties", recordId := "r1", data := "\x7b\"pulse\": 80\x7d", version := 3
        vectorClock := "\x7b\x7d", lastModified := 10, lastModifiedBy := "medic" }
    let op : Operation ℤ :=
      { opId := "op1", nodeId := "hq", opType := .merge, collection := "casualties", recordId := "r1"
        payload := (∅ : Dict String ℤ).insert "triage" 2, timestamp := 20, vectorClock := ∅
        lamportTimestamp := 1, enqueuedAt := 20 }
    ∃ table' record, applyOperation sampleJson ⟨[row], by decide⟩ op = .ok (table', record) ∧
      table'.get sampleJson op.key true = .ok (some record) ∧ 3 < record.version := by
  intro row op
  have hget : get sampleJson ⟨[row], by decide⟩ op.key true = .ok (some
      { recordId := "r1", collection := "casualties", data := (∅ : Dict String ℤ).insert "pulse" 80
        version := 3, vectorClock := ∅, lastModified := 10, lastModifiedBy := "medic" }) := by
    decide +kernel
  have hclock : sampleJson.vectorClock.RoundTrips op.vectorClock := by
    unfold JsonCodec.RoundTrips
    decide +kernel
  obtain ⟨hreturns, hstored⟩ := apply_operation_returns_stored sampleJson _ op hclock
    fun existing h => by
      obtain rfl := Except.ok.inj (hget.symm.trans h)
      unfold JsonCodec.RoundTrips
      decide +kernel
  obtain ⟨table', record, happlied⟩ := hreturns.2 ⟨_, hget, by decide +kernel⟩
  obtain ⟨existing, hexisting, hread, hversion, -⟩ := hstored table' record happlied
  obtain rfl := Except.ok.inj (hget.symm.trans hexisting)
  exact ⟨table', record, happlied, hread, hversion _ rfl⟩

/-! ### The table and the store -/

/-- The rows of the table read back as those of the store. -/
def Reads (json : RecordJson V) (table : RecordsTable) (s : LocalStore V) : Prop :=
  List.Forall₂ (fun row r => rowToRecord json row = .ok r) table.rows s.records.rows

theorem key_of_rowToRecord (row : RecordRow) (r : Record V) (h : rowToRecord json row = .ok r) :
    row.key = r.key := by
  obtain ⟨data, -, h⟩ := bind_eq_ok.1 h
  obtain ⟨vc, -, h⟩ := bind_eq_ok.1 h
  obtain rfl := Except.ok.inj h
  rfl

theorem get_of_reads {table : RecordsTable} {s : LocalStore V} (h : Reads json table s) (key : Key) :
    table.get json key true = .ok (s.get key true) := by
  rw [get_eq_ok, LocalStore.get_true]
  have hfind := Keyed.find?_of_forall₂ key_of_rowToRecord h key
  generalize table.find? key = row at hfind
  generalize s.records.find? key = r at hfind
  cases hfind with
  | none => exact .inl ⟨rfl, rfl⟩
  | some hread => exact .inr ⟨_, _, rfl, rfl, hread⟩

/-- Upserting the row of a live record stands for overwriting all of the record but its key. -/
theorem reads_upsertLive {table : RecordsTable} {s : LocalStore V} {r : Record V}
    (h : Reads json table s) (hdata : json.data.RoundTrips r.data)
    (hclock : json.vectorClock.RoundTrips r.vectorClock) (hlive : r.deleted = false)
    (hat : r.deletedAt = none) :
    Reads json (table.upsertLive (rowOf json r))
      { s with
        records := s.records.upsert r
          (fun stored => { r with recordId := stored.recordId, collection := stored.collection })
          fun _ => rfl } := by
  refine Keyed.upsert_forall₂ key_of_rowToRecord (rowToRecord_rowOf hdata hclock) ?_ h
  intro row q _ hread
  obtain ⟨hcollection, hrecord⟩ := Prod.mk.inj (key_of_rowToRecord row q hread)
  have hrow := rowToRecord_rowOf (r := { r with recordId := q.recordId, collection := q.collection })
    hdata hclock
  simp only [rowOf, hlive, hat] at hrow ⊢
  rw [hcollection, hrecord]
  exact hrow

/-- Upserting the row of a tombstone stands for overwriting all but the key and the data. -/
theorem reads_upsertDeleted {table : RecordsTable} {s : LocalStore V} {r : Record V}
    (h : Reads json table s) (hdata : json.data.RoundTrips r.data)
    (hclock : json.vectorClock.RoundTrips r.vectorClock) (hdeleted : r.deleted = true) :
    Reads json (table.upsertDeleted (rowOf json r))
      { s with
        records := s.records.upsert r
          (fun stored => { r with
            recordId := stored.recordId, collection := stored.collection, data := stored.data })
          fun _ => rfl } := by
  refine Keyed.upsert_forall₂ key_of_rowToRecord (rowToRecord_rowOf hdata hclock) ?_ h
  intro row q _ hread
  obtain ⟨hcollection, hrecord⟩ := Prod.mk.inj (key_of_rowToRecord row q hread)
  have hcolumn := loads_data hread
  have hrow := rowToRecord_rowOf
    (r := { r with recordId := q.recordId, collection := q.collection, data := q.data })
    hcolumn hclock
  simp only [rowOf, hdeleted, if_pos] at hrow ⊢
  rw [hcollection, hrecord]
  exact hrow

/-- The store is what the table holds: an operation returns the same record from both, and the
table it leaves holds the store it leaves. -/
theorem applyOperation_reads {table : RecordsTable} {s : LocalStore V} {op : Operation V}
    (h : Reads json table s)
    (hfits : SqlValue.fitsInteger (LocalStore.nextVersion (s.get op.key true) op) = true)
    (hdata : json.data.RoundTrips (LocalStore.writtenData (s.get op.key true) op))
    (hclock : json.vectorClock.RoundTrips op.vectorClock) :
    ∃ table', table.applyOperation json op = .ok (table', (s.applyOperation op).2) ∧
      Reads json table' (s.applyOperation op).1 := by
  rw [(s.applyOperation_eq op).1]
  refine ⟨_, applyOperation_eq_ok.2 ⟨_, get_of_reads h op.key, hfits, rfl, rfl⟩, ?_⟩
  rw [upsertRecord, LocalStore.deleted_written]
  by_cases ht : op.opType = .delete
  · have hstore : (s.applyOperation op).1 = (s.applyDelete op).1 := by
      unfold LocalStore.applyOperation
      rw [ht]
    have hreads := reads_upsertDeleted (r := LocalStore.written (s.get op.key true) op) h hdata hclock (decide_eq_true ht)
    rw [if_pos (decide_eq_true ht), hstore]
    rw [written_delete ht] at hreads ⊢
    exact hreads
  · have hstore : ∃ dataOf, (s.applyOperation op).1 = (s.upsertLive op dataOf).1 ∧
        dataOf (s.get op.key true) = LocalStore.writtenData (s.get op.key true) op := by
      unfold LocalStore.applyOperation LocalStore.writtenData
      cases hop : op.opType with
      | create => exact ⟨_, rfl, rfl⟩
      | update => exact ⟨_, rfl, rfl⟩
      | merge => exact ⟨_, rfl, rfl⟩
      | delete => exact absurd hop ht
    obtain ⟨dataOf, hstore, hwritten⟩ := hstore
    have hreads := reads_upsertLive (r := LocalStore.written (s.get op.key true) op) h hdata hclock
      (decide_eq_false ht) (if_neg ht)
    rw [if_neg (by rw [decide_eq_false ht]; decide), hstore]
    rw [written_live ht, ← hwritten] at hreads ⊢
    exact hreads

end RecordsTable
end Dhava
