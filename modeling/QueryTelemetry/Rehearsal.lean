import QueryTelemetry.Catalog
import QueryTelemetry.Json.Value
import QueryTelemetry.Source
import QueryTelemetry.Text.Search

/-!
# Sources to rehearse with

A `Rehearsal` is a source that holds the contents of a statistics view and answers the queries of
the collector without a server. It knows a query by its text, and it can be told to fail. A `Stage`
puts canned answers and a run flag in front of a rehearsal, and keeps a record of all queries.
-/

namespace QueryTelemetry

/-- Whether a text occurs in another one. -/
private def mentions (text needle : String) : Bool := Text.occursIn needle.toList text.toList

/-- A source that answers from contents it has been given. -/
structure Rehearsal where
  /-- The columns of the view. -/
  columns : List String
  /-- The rows of the view. -/
  rows : List ViewRow
  /-- How many statements it says are in the view. -/
  count : Int64
  /-- For how many statements it says there is room. -/
  capacity : Int64
  version : Option ServerVersion
  /-- The errors for the next queries, whatever they are. -/
  failures : List QueryError
  /-- Errors for the next query that contains a text. -/
  targeted : List (String × QueryError)
  /-- All queries so far. -/
  executed : List String

namespace Rehearsal

/-- The columns of a view on a recent server, as far as they matter. -/
def recentColumns : List String :=
  ["userid", "dbid", "queryid", "query", "calls", "total_exec_time", "rows", "shared_blks_hit",
    "rolname", "datname", "oid"]

/-- An empty view on a recent server. -/
def initial : Rehearsal where
  columns := recentColumns
  rows := []
  count := 0
  capacity := 5000
  version := some ⟨16, 2, 0⟩
  failures := []
  targeted := []
  executed := []

/-- Replaces the rows of the view. -/
def setRows (r : Rehearsal) (rows : List ViewRow) : Rehearsal :=
  { r with rows, count := Int64.ofNat rows.length }

/-- Lets one more query fail, after those that have been told to. -/
def failNext (r : Rehearsal) (e : QueryError) : Rehearsal :=
  { r with failures := r.failures ++ [e] }

/-- Lets the next query fail that contains a text. -/
def failMatching (r : Rehearsal) (needle : String) (e : QueryError) : Rehearsal :=
  { r with targeted := r.targeted ++ [(needle, e)] }

/-! ### Knowing queries by their texts -/

/-- Whether a query asks for the columns only: it wants no rows. -/
def isDiscovery (sql : String) : Bool :=
  "LIMIT 0".toList.isSuffixOf (Text.trimEnd sql.toList)

/-- The columns between the first `SELECT` and the first `FROM` after it. -/
def selection (sql : String) : List String :=
  match Text.afterFirst? "SELECT".toList sql.toList with
  | none => []
  | some rest =>
    let parts := (Text.splitAt ',' (Text.beforeFirst "FROM".toList rest)).map Text.trim
    (parts.filter fun part => !part.isEmpty).map String.ofList

/-- The number of queries so far that asked for the columns only. -/
def discoveries (r : Rehearsal) : Nat := (r.executed.filter isDiscovery).length

/-! ### Answers -/

/-- A row with the given columns only, as far as it has them. -/
def project (columns : List String) (row : ViewRow) : ViewRow :=
  .ofList (columns.filterMap fun column => (row.get? column).map (column, ·))

/-- Whether a row belongs to the database that the first parameter names, if there is one. -/
def isWanted (parameters : List String) (row : ViewRow) : Bool :=
  match parameters with
  | [] => true
  | database :: _ => row.text? "datname" == some database

/-- The answer to a query for the statistics. -/
def statistics (r : Rehearsal) (sql : String) (parameters : List String) : QueryResult :=
  let selected := selection sql
  let columns := if selected = ["*"] then r.columns else selected
  ⟨columns, (r.rows.filter (isWanted parameters)).map (project columns)⟩

/-- The answer to a query for one value. -/
private def single (column : String) (cell : Cell) : QueryResult :=
  ⟨[column], [.ofList [(column, cell)]]⟩

/-- The answer to a query if nothing fails. -/
def answer (r : Rehearsal) (sql : String) (parameters : List String) : QueryResult :=
  if mentions sql "pg_settings" then
    single "setting" (.text (String.ofList (Json.writeWhole r.capacity.toInt)))
  else if mentions sql "COUNT(*)" then single "count" (.whole r.count)
  else if isDiscovery sql then ⟨r.columns, []⟩
  else r.statistics sql parameters

/-- Takes out the first error that is meant for a query. -/
private def takeTargeted (sql : String) :
    List (String × QueryError) → Option (QueryError × List (String × QueryError))
  | [] => none
  | (needle, e) :: rest =>
    if mentions sql needle then some (e, rest)
    else (takeTargeted sql rest).map fun (found, others) => (found, (needle, e) :: others)

/-- Answers a query, or fails if it has been told to. -/
def query (sql : String) (parameters : List String) (r : Rehearsal) :
    Except QueryError QueryResult × Rehearsal :=
  let r := { r with executed := r.executed ++ [sql] }
  match r.failures with
  | e :: failures => (.error e, { r with failures })
  | [] =>
    match takeTargeted sql r.targeted with
    | some (e, targeted) => (.error e, { r with targeted })
    | none => (.ok (r.answer sql parameters), r)

instance : Source Rehearsal where
  query := query
  serverVersion r := (r.version, r)

end Rehearsal

/-! ### Canned answers -/

/-- A rehearsal behind canned answers. -/
structure Stage where
  rehearsal : Rehearsal
  /-- Texts with the answers to the queries that contain them; the first one counts. -/
  canned : List (String × QueryResult)
  /-- A query that contains this text makes the collector stop. -/
  stopOn : Option String
  running : Bool
  /-- All queries so far, with their parameters. -/
  record : List (String × List String)

namespace Stage

/-- A rehearsal from the beginning, without canned answers. -/
def initial : Stage := ⟨.initial, [], none, true, []⟩

/-- Answers a query with a canned answer, or lets the rehearsal answer it. -/
def query (sql : String) (parameters : List String) (s : Stage) :
    Except QueryError QueryResult × Stage :=
  let s := { s with
    record := s.record ++ [(sql, parameters)]
    running := s.running && !s.stopOn.any (mentions sql) }
  match s.canned.find? fun (needle, _) => mentions sql needle with
  | some (_, result) => (.ok result, s)
  | none =>
    let (answer, rehearsal) := s.rehearsal.query sql parameters
    (answer, { s with rehearsal })

instance : Source Stage where
  query := query
  serverVersion s := (s.rehearsal.version, s)

instance : Interruptible Stage where
  isRunning := running

end Stage

end QueryTelemetry
