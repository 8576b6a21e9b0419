import Mathlib.Data.List.Basic

/-! Comma-separated text. The writer quotes a cell only where it must and ends a row with
`\r\n`; the reader takes one character at a time. What was written is read back, whatever
characters the cells hold. -/

namespace Foundations.Csv

/-- The characters that end a cell. -/
def isEnd (c : Char) : Bool := c = ',' || c = '\n' || c = '\r'

/-! ### Writing -/

def needsQuotes (cell : List Char) : Bool := cell.any fun c => c = '"' || isEnd c

def quoted (cell : List Char) : List Char :=
  '"' :: cell.flatMap (fun c => if c = '"' then ['"', '"'] else [c]) ++ ['"']

def writeCell (cell : List Char) : List Char := if needsQuotes cell then quoted cell else cell

def lineEnd : List Char := ['\r', '\n']

/-- A row of one empty cell is quoted, to tell it from a row of none. -/
def writeRow : List (List Char) → List Char
  | [[]] => quoted [] ++ lineEnd
  | row => List.intercalate [','] (row.map writeCell) ++ lineEnd

def write (rows : List (List (List Char))) : List Char := rows.flatMap writeRow

/-! ### Reading -/

inductive Mode
  | startRow | afterReturn | startCell | inCell | inQuoted | quoteInQuoted
  deriving DecidableEq

structure Reader where
  mode : Mode
  cell : List Char
  row : List (List Char)
  rows : List (List (List Char))
  deriving DecidableEq

namespace Reader

def init : Reader := ⟨.startRow, [], [], []⟩

def push (r : Reader) (mode : Mode) (c : Char) : Reader := { r with mode, cell := r.cell ++ [c] }

def endCell (r : Reader) (c : Char) : Reader :=
  if c = ',' then ⟨.startCell, [], r.row ++ [r.cell], r.rows⟩
  else ⟨if c = '\r' then .afterReturn else .startRow, [], [], r.rows ++ [r.row ++ [r.cell]]⟩

def startCell (r : Reader) (c : Char) : Reader :=
  if isEnd c then r.endCell c
  else if c = '"' then { r with mode := .inQuoted }
  else r.push .inCell c

/-- An empty line is a row without cells. -/
def startRow (r : Reader) (c : Char) : Reader :=
  if c = '\n' then { r with mode := .startRow, rows := r.rows ++ [[]] }
  else if c = '\r' then { r with mode := .afterReturn, rows := r.rows ++ [[]] }
  else r.startCell c

def step (r : Reader) (c : Char) : Reader :=
  match r.mode with
  | .startRow => r.startRow c
  | .afterReturn => if c = '\n' then { r with mode := .startRow } else r.startRow c
  | .startCell => r.startCell c
  | .inCell => if isEnd c then r.endCell c else r.push .inCell c
  | .inQuoted => if c = '"' then { r with mode := .quoteInQuoted } else r.push .inQuoted c
  | .quoteInQuoted =>
    if c = '"' then r.push .inQuoted c
    else if isEnd c then r.endCell c
    else r.push .inCell c

/-- The rows at the end of the input; an open row counts. -/
def finish (r : Reader) : List (List (List Char)) :=
  match r.mode with
  | .startRow | .afterReturn => r.rows
  | _ => r.rows ++ [r.row ++ [r.cell]]

end Reader

def read (text : List Char) : List (List (List Char)) := (text.foldl Reader.step Reader.init).finish

/-! ### A cell -/

variable {rows : List (List (List Char))} {row : List (List Char)}

theorem not_isEnd_quote : isEnd '"' = false := rfl

/-- Inside the quotes, a doubled quote is one character of the cell. -/
theorem foldl_doubled (cell got : List Char) :
    (cell.flatMap fun c => if c = '"' then ['"', '"'] else [c]).foldl Reader.step
        ⟨.inQuoted, got, row, rows⟩ = ⟨.inQuoted, got ++ cell, row, rows⟩ := by
  induction cell generalizing got with
  | nil => rw [List.flatMap_nil, List.foldl_nil, List.append_nil]
  | cons c cell ih =>
    have hc : (if c = '"' then ['"', '"'] else [c]).foldl Reader.step ⟨.inQuoted, got, row, rows⟩ =
        ⟨.inQuoted, got ++ [c], row, rows⟩ := by
      by_cases h : c = '"'
      · rw [if_pos h, h]
        rfl
      · rw [if_neg h]
        simp only [List.foldl_cons, List.foldl_nil, Reader.step, if_neg h, Reader.push]
    rw [List.flatMap_cons, List.foldl_append, hc, ih, List.append_assoc, List.singleton_append]

/-- A cell without special characters stands as it is. -/
theorem foldl_plain {cell : List Char} (h : needsQuotes cell = false) (got : List Char) :
    cell.foldl Reader.step ⟨.inCell, got, row, rows⟩ = ⟨.inCell, got ++ cell, row, rows⟩ := by
  induction cell generalizing got with
  | nil => rw [List.foldl_nil, List.append_nil]
  | cons c cell ih =>
    rw [needsQuotes, List.any_cons, Bool.or_eq_false_iff] at h
    have hc : Reader.step ⟨.inCell, got, row, rows⟩ c = ⟨.inCell, got ++ [c], row, rows⟩ := by
      simp [Reader.step, Reader.push, (Bool.or_eq_false_iff.1 h.1).2]
    rw [List.foldl_cons, hc, ih h.2, List.append_assoc, List.singleton_append]

theorem endCell_mode (mode mode' : Mode) (cell : List Char) (c : Char) :
    Reader.endCell ⟨mode, cell, row, rows⟩ c = Reader.endCell ⟨mode', cell, row, rows⟩ c := rfl

theorem foldl_quoted (cell : List Char) {c : Char} (hc : isEnd c = true) :
    (quoted cell ++ [c]).foldl Reader.step ⟨.startCell, [], row, rows⟩ =
      Reader.endCell ⟨.startCell, cell, row, rows⟩ c := by
  have hne : c ≠ '"' := fun h => by
    rw [h, not_isEnd_quote] at hc
    cases hc
  have hopen : Reader.step ⟨.startCell, [], row, rows⟩ '"' = ⟨.inQuoted, [], row, rows⟩ := rfl
  have hclose : Reader.step ⟨.inQuoted, cell, row, rows⟩ '"' = ⟨.quoteInQuoted, cell, row, rows⟩ := rfl
  have hquoted : (quoted cell).foldl Reader.step ⟨.startCell, [], row, rows⟩ =
      ⟨.quoteInQuoted, cell, row, rows⟩ := by
    rw [quoted, List.cons_append, List.foldl_cons, hopen, List.foldl_append, foldl_doubled,
      List.nil_append, List.foldl_cons, hclose, List.foldl_nil]
  rw [List.foldl_append, hquoted, List.foldl_cons, List.foldl_nil]
  simp only [Reader.step, if_neg hne, if_pos hc]
  exact endCell_mode _ _ _ _

/-- A written cell, with the character that ends it. -/
theorem foldl_writeCell (cell : List Char) {c : Char} (hc : isEnd c = true) :
    (writeCell cell ++ [c]).foldl Reader.step ⟨.startCell, [], row, rows⟩ =
      Reader.endCell ⟨.startCell, cell, row, rows⟩ c := by
  unfold writeCell
  cases h : needsQuotes cell with
  | true => exact foldl_quoted cell hc
  | false =>
    cases cell with
    | nil => simp [Reader.step, Reader.startCell, hc]
    | cons d cell =>
      rw [needsQuotes, List.any_cons, Bool.or_eq_false_iff] at h
      obtain ⟨hq, hd⟩ := Bool.or_eq_false_iff.1 h.1
      have hstart : Reader.step ⟨.startCell, [], row, rows⟩ d = ⟨.inCell, [d], row, rows⟩ := by
        simp [Reader.step, Reader.startCell, Reader.push, hd, of_decide_eq_false hq]
      have hcell : (d :: cell).foldl Reader.step ⟨.startCell, [], row, rows⟩ =
          ⟨.inCell, d :: cell, row, rows⟩ := by
        rw [List.foldl_cons, hstart, foldl_plain h.2, List.singleton_append]
      rw [if_neg Bool.false_ne_true, List.foldl_append, hcell, List.foldl_cons, List.foldl_nil]
      simp only [Reader.step, if_pos hc]
      exact endCell_mode _ _ _ _

/-! ### A row -/

/-- The cells of a row, read from the start of the first. -/
theorem foldl_cells (cell : List Char) (cells before : List (List Char)) :
    (List.intercalate [','] ((cell :: cells).map writeCell) ++ lineEnd).foldl Reader.step
        ⟨.startCell, [], before, rows⟩ =
      ⟨.startRow, [], [], rows ++ [before ++ cell :: cells]⟩ := by
  induction cells generalizing cell before with
  | nil =>
    have hsplit : writeCell cell ++ lineEnd = (writeCell cell ++ ['\r']) ++ ['\n'] := by
      rw [List.append_assoc]
      rfl
    rw [List.map_singleton, List.intercalate_singleton, hsplit, List.foldl_append,
      foldl_writeCell cell rfl]
    rfl
  | cons next cells ih =>
    rw [List.map_cons, List.map_cons, List.intercalate_cons_cons, ← List.map_cons, List.append_assoc,
      List.foldl_append, foldl_writeCell cell rfl]
    have hend : Reader.endCell ⟨.startCell, cell, before, rows⟩ ',' =
        ⟨.startCell, [], before ++ [cell], rows⟩ := rfl
    rw [hend, ih, List.append_assoc, List.singleton_append]

/-- A character that opens no empty line starts the first cell of its row. -/
theorem step_startRow {c : Char} (hn : c ≠ '\n') (hr : c ≠ '\r') :
    Reader.step ⟨.startRow, [], [], rows⟩ c = Reader.step ⟨.startCell, [], [], rows⟩ c := by
  simp only [Reader.step, Reader.startRow, if_neg hn, if_neg hr]
  unfold Reader.startCell Reader.push
  rw [endCell_mode .startRow .startCell]

theorem writeCell_head (d : Char) (cell tail : List Char) :
    ∃ c rest, writeCell (d :: cell) ++ tail = c :: rest ∧ c ≠ '\n' ∧ c ≠ '\r' := by
  unfold writeCell
  cases h : needsQuotes (d :: cell) with
  | true => exact ⟨'"', _, rfl, by decide, by decide⟩
  | false =>
    rw [needsQuotes, List.any_cons, Bool.or_eq_false_iff] at h
    have hd := (Bool.or_eq_false_iff.1 h.1).2
    exact ⟨d, _, rfl, fun e => absurd (e ▸ hd) (by decide), fun e => absurd (e ▸ hd) (by decide)⟩

/-- A row with cells does not look like an empty line. -/
theorem writeRow_head (cell : List Char) (cells : List (List Char)) :
    ∃ c rest, writeRow (cell :: cells) = c :: rest ∧ c ≠ '\n' ∧ c ≠ '\r' := by
  cases cells with
  | nil =>
    cases cell with
    | nil => exact ⟨'"', _, rfl, by decide, by decide⟩
    | cons d cell =>
      simp only [writeRow, List.map_singleton, List.intercalate_singleton]
      exact writeCell_head d cell _
  | cons next cells =>
    simp only [writeRow, List.map_cons, List.intercalate_cons_cons, List.append_assoc]
    cases cell with
    | nil => exact ⟨',', _, rfl, by decide, by decide⟩
    | cons d cell => exact writeCell_head d cell _

theorem foldl_writeRow (row : List (List Char)) :
    (writeRow row).foldl Reader.step ⟨.startRow, [], [], rows⟩ =
      ⟨.startRow, [], [], rows ++ [row]⟩ := by
  cases row with
  | nil => rfl
  | cons cell cells =>
    obtain ⟨c, rest, heq, hn, hr⟩ := writeRow_head cell cells
    have hcell : (writeRow (cell :: cells)).foldl Reader.step ⟨.startRow, [], [], rows⟩ =
        (writeRow (cell :: cells)).foldl Reader.step ⟨.startCell, [], [], rows⟩ := by
      rw [heq, List.foldl_cons, List.foldl_cons, step_startRow hn hr]
    rw [hcell]
    unfold writeRow
    split
    · rename_i hrow
      rw [hrow]
      rfl
    · rw [foldl_cells, List.nil_append]

/-! ### The text -/

theorem foldl_write (new : List (List (List Char))) :
    (write new).foldl Reader.step ⟨.startRow, [], [], rows⟩ =
      ⟨.startRow, [], [], rows ++ new⟩ := by
  induction new generalizing rows with
  | nil => rw [List.append_nil]; rfl
  | cons row new ih =>
    unfold write at ih ⊢
    rw [List.flatMap_cons, List.foldl_append, foldl_writeRow, ih, List.append_assoc,
      List.singleton_append]

/-- What was written is read back. -/
theorem read_write (new : List (List (List Char))) : read (write new) = new := by
  unfold read Reader.init
  rw [foldl_write, List.nil_append]
  rfl

end Foundations.Csv
