import Dhava.Foundations.Csv
import Dhava.Foundations.Keyed
import Dhava.Foundations.Run
import Dhava.Spec.Models
import Mathlib.Algebra.Order.Ring.Rat

/-! The audit logger (`audit.py`) over the `audit_log` table of `backends/sqlite.py`. -/

namespace Dhava

open Foundations

/-- An `AuditEntry` as a whole. In a row of the table the details are JSON text. -/
structure AuditRecord (D : Type) where
  auditId : String
  timestamp : ℚ
  actionType : String
  nodeId : String
  details : D
  userId : Option String
  authority : Option String
  deriving DecidableEq

/-- `json_dumps` and `json_loads` on the details, and `json_dumps` on a list of `to_dict`s. -/
structure AuditJson (D : Type) where
  dumps : D → String
  loads : String → D
  dumpsEntries : List (AuditRecord D) → String

/-- `ORDER BY timestamp DESC`. Which of two rows with one timestamp comes first is left to
the database. -/
structure NewestFirst where
  sort : List (AuditRecord String) → List (AuditRecord String)
  perm : ∀ rows, (sort rows).Perm rows
  sorted : ∀ rows, (sort rows).Pairwise fun a b => b.timestamp ≤ a.timestamp

/-- A call of `log`, with the uuid and the clock reading it draws. -/
structure LogCall (D : Type) where
  auditId : String
  now : ℚ
  actionType : String
  details : D
  userId : Option String
  authority : Option String
  timestamp : Option ℚ

structure AuditFilter where
  actionType : Option String
  startTime : Option ℚ
  endTime : Option ℚ
  userId : Option String

namespace AuditRecord

variable {D : Type}

def create (nodeId : String) (c : LogCall D) : AuditRecord D where
  auditId := c.auditId
  timestamp := c.timestamp.getD c.now
  actionType := c.actionType
  nodeId := nodeId
  details := c.details
  userId := c.userId
  authority := c.authority

def withDetails {D' : Type} (e : AuditRecord D) (details : D') : AuditRecord D' :=
  { e with details }

/-- The conditions of the `WHERE` clause; a missing `user_id` equals nothing. -/
def meets (f : AuditFilter) (e : AuditRecord D) : Bool :=
  decide ((∀ a ∈ f.actionType, e.actionType = a) ∧ (∀ u ∈ f.userId, e.userId = some u) ∧
    (∀ t ∈ f.startTime, t ≤ e.timestamp) ∧ ∀ t ∈ f.endTime, e.timestamp ≤ t)

/-- What the details are after a trip through the table. -/
def reread (json : AuditJson D) (e : AuditRecord D) : AuditRecord D :=
  e.withDetails (json.loads (json.dumps e.details))

/-- The row `export` writes of an entry; `str` prints a float. -/
def cells (json : AuditJson D) (str : ℚ → String) (e : AuditRecord D) : List String :=
  [e.auditId, str e.timestamp, e.actionType, e.nodeId, e.userId.getD "", e.authority.getD "",
    json.dumps e.details]

end AuditRecord

structure AuditLogger where
  nodeId : String
  auditLog : Keyed (AuditRecord.auditId (D := String))

namespace AuditLogger

variable {D : Type}

def empty (nodeId : String) : AuditLogger := ⟨nodeId, Keyed.empty⟩

/-- A taken id fails the primary key, and nothing is inserted. -/
def log (json : AuditJson D) (a : AuditLogger) (c : LogCall D) :
    AuditLogger × Except String (AuditRecord D) :=
  let entry := AuditRecord.create a.nodeId c
  match a.auditLog.insert? (entry.withDetails (json.dumps entry.details)) with
  | none => (a, .error "UNIQUE constraint failed: audit_log.audit_id")
  | some auditLog => ({ a with auditLog }, .ok entry)

/-- `_row_to_entry`. -/
def rowToEntry (json : AuditJson D) (row : AuditRecord String) : AuditRecord D :=
  row.withDetails (json.loads row.details)

def query (json : AuditJson D) (order : NewestFirst) (a : AuditLogger) (f : AuditFilter)
    (limit : ℕ := 100) (offset : ℕ := 0) : List (AuditRecord D) :=
  let rows := order.sort (a.auditLog.rows.filter fun r => r.meets f)
  ((rows.drop offset).take limit).map (rowToEntry json)

/-- `count` has no user filter. -/
def count (a : AuditLogger) (actionType : Option String) (startTime endTime : Option ℚ) : ℕ :=
  (a.auditLog.rows.filter fun r => r.meets ⟨actionType, startTime, endTime, none⟩).length

def header : List String :=
  ["audit_id", "timestamp", "action_type", "node_id", "user_id", "authority", "details"]

def exportLimit : ℕ := 1000000

/-- The text `export` encodes. -/
def exportTrail (json : AuditJson D) (order : NewestFirst) (str : ℚ → String) (a : AuditLogger)
    (startTime endTime : Option ℚ) (format : String) : Except String String :=
  let entries := a.query json order ⟨none, startTime, endTime, none⟩ exportLimit
  if format.toLower = "json" then .ok (json.dumpsEntries entries)
  else if format.toLower = "csv" then
    let rows := header :: entries.map (AuditRecord.cells json str)
    .ok (String.ofList (Csv.write (rows.map (List.map String.toList))))
  else .error ("Unsupported export format: " ++ format)

end AuditLogger
end Dhava
