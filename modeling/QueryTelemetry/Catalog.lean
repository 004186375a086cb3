import QueryTelemetry.Metrics
import QueryTelemetry.Text.Sorted

/-!
# The statistics view and its queries

Which columns the view has depends on the versions of the server and the extension. The collector
finds out by a query without rows, keeps the answer in a `ColumnCache`, and selects those of the
columns it knows what to do with. This module has the texts of all its queries.
-/

namespace QueryTelemetry

namespace Catalog

/-! ### Columns -/

/-- The columns without which there is nothing to report. -/
def requiredColumns : List String := ["calls", "query", "rows"]

/-- The columns that are selected if the view has them. -/
def desiredColumns : List String :=
  Metric.all.toList.map Metric.column ++ ["datname", "rolname", "query", "queryid"]

/-- The required columns that a view does not have. -/
def missingColumns (available : List String) : List String :=
  requiredColumns.filter fun column => !available.contains column

/-- The columns of a view that are selected. -/
def selectedColumns (available : List String) : List String :=
  available.filter desiredColumns.contains

/-! ### Queries -/

/-- The query for the statistics. Numbers of roles and databases are resolved to names; statements
that are hidden from the collector and explanations of plans are left out. -/
def statisticsQuery (columns view filters : String) (limit : Nat) : String :=
  "\n            SELECT " ++ columns ++
  "\n              FROM " ++ view ++ " as pg_stat_statements" ++
  "\n              LEFT JOIN pg_roles" ++
  "\n                     ON pg_stat_statements.userid = pg_roles.oid" ++
  "\n              LEFT JOIN pg_database" ++
  "\n                     ON pg_stat_statements.dbid = pg_database.oid" ++
  "\n              WHERE query != '<insufficient privilege>'" ++
  "\n              AND query NOT LIKE 'EXPLAIN %'" ++
  "\n              " ++ filters ++
  "\n              LIMIT " ++ toString limit ++
  "\n        "

/-- The query that finds out the columns of a view. It returns no rows. -/
def discoveryQuery (view : String) : String := statisticsQuery "*" view "" 0

/-- The condition that the statement ran in the database given as parameter. -/
def databaseFilter : String := "AND pg_database.datname = $1"

/-- The query for the number of statements in the view, without their texts. -/
def countQuery : String := "SELECT COUNT(*) AS count FROM pg_stat_statements(false)"

/-- The query for the number of statements on servers that cannot leave the texts out. -/
def countQueryWithTexts : String := "SELECT COUNT(*) AS count FROM pg_stat_statements"

/-- The query for the number of statements for which the view has room. -/
def capacityQuery : String :=
  "SELECT setting FROM pg_settings WHERE name = 'pg_stat_statements.max'"

end Catalog

/-! ### The columns that have been found -/

/-- The columns of the view, as far as they have been found out. -/
structure ColumnCache where
  /-- The names in order, each once. -/
  columns : Option (List String)
  deriving DecidableEq

namespace ColumnCache

/-- Nothing has been found out. -/
def empty : ColumnCache := ⟨none⟩

/-- Keeps the columns that have been found. -/
def fill (columns : List String) : ColumnCache := ⟨some (Text.sortedSet columns)⟩

/-- Whether the columns are known. -/
def isValid (c : ColumnCache) : Bool := c.columns.isSome

end ColumnCache

end QueryTelemetry
