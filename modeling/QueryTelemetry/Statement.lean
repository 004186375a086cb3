import QueryTelemetry.Metrics
import QueryTelemetry.Text.Blank

/-!
# Statements and their statistics

A `ViewRow` is what the database returns: cells under column names, where any column may be
missing. `Statement.ofRow` picks out what the library knows about; only the text of the statement
is indispensable. A `NormalStatement` is a statement whose text no longer holds data, with the
fingerprint of that text and the tables and commands it mentions. Its `Identity` is what makes two
rows belong to the same statement.
-/

namespace QueryTelemetry

/-- The value of a column. -/
inductive Cell
  | null
  | whole (n : Int64)
  | real (x : Float)
  | text (s : String)

theorem lookup_cons_eq {κ α : Type} [DecidableEq κ] (k key : κ) (value : α) (rest : List (κ × α)) :
    ((key, value) :: rest).lookup k = if k = key then some value else rest.lookup k := by
  rw [List.lookup_cons]
  split <;> simp_all

/-- A row of the statistics view. -/
structure ViewRow where
  cells : List (String × Cell)

namespace ViewRow

/-- A row without columns. -/
def empty : ViewRow := ⟨[]⟩

/-- The cell under a column name. -/
def get? (row : ViewRow) (column : String) : Option Cell := row.cells.lookup column

/-- Replaces the cell of a column, or appends it. -/
private def setCell (column : String) (cell : Cell) : List (String × Cell) → List (String × Cell)
  | [] => [(column, cell)]
  | (other, old) :: rest =>
    if other = column then (column, cell) :: rest else (other, old) :: setCell column cell rest

/-- Sets the cell of a column. -/
def set (row : ViewRow) (column : String) (cell : Cell) : ViewRow :=
  ⟨setCell column cell row.cells⟩

/-- The row with the given cells; of several under one name the last one counts. -/
def ofList (cells : List (String × Cell)) : ViewRow :=
  cells.foldl (fun row (column, cell) => row.set column cell) empty

private theorem lookup_setCell (column other : String) (cell : Cell)
    (cells : List (String × Cell)) :
    (setCell column cell cells).lookup other =
      if other = column then some cell else cells.lookup other := by
  induction cells with
  | nil => simp [setCell, lookup_cons_eq]
  | cons first rest ih =>
    obtain ⟨name, old⟩ := first
    simp only [setCell]
    split
    · grind [lookup_cons_eq]
    · grind [lookup_cons_eq]

/-- What was set can be read, and no other column has changed. -/
@[simp] theorem get?_set (row : ViewRow) (column other : String) (cell : Cell) :
    (row.set column cell).get? other = if other = column then some cell else row.get? other :=
  lookup_setCell column other cell row.cells

/-- The text under a column name; none if the cell holds something else. -/
def text? (row : ViewRow) (column : String) : Option String :=
  match row.get? column with
  | some (.text s) => some s
  | _ => none

/-- The whole number under a column name; none if the cell holds something else. -/
def whole? (row : ViewRow) (column : String) : Option Int64 :=
  match row.get? column with
  | some (.whole n) => some n
  | _ => none

/-- The number under a column name; none if the cell holds something else. -/
def counter? (row : ViewRow) (column : String) : Option Counter :=
  match row.get? column with
  | some (.whole n) => some (.whole n)
  | some (.real x) => some (.real x)
  | _ => none

end ViewRow

/-! ### Statements -/

/-- Why a row is no statement. -/
inductive RowError
  /-- The row has no text in the column of the statement text. -/
  | missingQuery
  deriving DecidableEq

/-- The message for an error. -/
def RowError.message : RowError → String
  | missingQuery => "row has no query text"

/-- A statement with its statistics. -/
structure Statement where
  query : String
  /-- The database in which it ran. -/
  database : Option String
  /-- The role that ran it. -/
  role : Option String
  /-- The number under which the server knows it. -/
  queryId : Option Int64
  metrics : Metrics

/-- Reads a statement off a row. Cells of an unexpected kind count as missing. -/
def Statement.ofRow (row : ViewRow) : Except RowError Statement :=
  match row.text? "query" with
  | none => .error .missingQuery
  | some query => .ok {
      query
      database := row.text? "datname"
      role := row.text? "rolname"
      queryId := row.whole? "queryid"
      metrics := Metrics.ofFn fun metric => row.counter? metric.column }

/-! ### Normal statements -/

/-- The tables and commands that a statement mentions. -/
structure Mentions where
  /-- The names of the tables with commas between them. -/
  tableList : String
  commands : List String
  deriving DecidableEq

namespace Mentions

/-- Nothing is mentioned. -/
def none : Mentions := ⟨"", []⟩

/-- The parts between the commas of a list, without blanks around them and without empty parts;
none if no part is left. -/
def readTables? (tableList : String) : Option (List String) :=
  let parts := (Text.splitAt ',' tableList.toList).map Text.trim
  let names := (parts.filter fun part => !part.isEmpty).map String.ofList
  if names.isEmpty then .none else some names

/-- The names of the tables, if there are any. -/
def tables? (m : Mentions) : Option (List String) := readTables? m.tableList

end Mentions

/-- What rows of one statement have in common: the fingerprint of its text, the database and the
role. -/
structure Identity where
  fingerprint : String
  database : Option String
  role : Option String
  deriving DecidableEq

/-- A statement whose text holds no data, with what is known about the text. -/
structure NormalStatement where
  statement : Statement
  fingerprint : String
  mentions : Mentions

/-- The identity of a statement. -/
def NormalStatement.identity (s : NormalStatement) : Identity :=
  ⟨s.fingerprint, s.statement.database, s.statement.role⟩

end QueryTelemetry
