import QueryTelemetry.Event

/-!
# Where statistics come from

A `Source` answers queries. Its errors are of a few kinds, and the collector decides by the kind
alone. An `Interruptible` world can ask the collector to stop; it may do so at any time, also while
a query is running, so whether it has is read off its state.
-/

namespace QueryTelemetry

/-- What kind of failure a query met. -/
inductive QueryErrorKind
  /-- The statistics extension has not been loaded by the server. -/
  | extensionNotLoaded
  /-- The statistics view does not exist in this database. -/
  | extensionNotCreated
  /-- The query took too long or was cancelled. -/
  | canceled
  /-- The server does not accept the query. -/
  | programming
  /-- Any other error of the server. -/
  | database
  /-- There is no connection. -/
  | connection
  deriving DecidableEq, Repr

namespace QueryErrorKind

/-- The tag under which errors of a kind are counted. -/
def tag : QueryErrorKind → String
  | extensionNotLoaded =>
    "error:database-ObjectNotInPrerequisiteState-pg_stat_statements_not_loaded"
  | extensionNotCreated => "error:database-UndefinedTable-pg_stat_statements_not_created"
  | canceled => "error:database-QueryCanceled"
  | programming => "error:database-ProgrammingError"
  | database => "error:database-DatabaseError"
  | connection => "error:database-OperationalError"

/-- The name of a kind in the log. -/
def name : QueryErrorKind → String
  | extensionNotLoaded => "ExtensionNotLoaded"
  | extensionNotCreated => "ExtensionNotCreated"
  | canceled => "Canceled"
  | programming => "Programming"
  | database => "Database"
  | connection => "Connection"

/-- All kinds. -/
def all : List QueryErrorKind :=
  [extensionNotLoaded, extensionNotCreated, canceled, programming, database, connection]

/-- Whether an error may come from wrong ideas about the columns of the view. -/
def doubtsColumns : QueryErrorKind → Bool
  | canceled | programming | extensionNotCreated => true
  | extensionNotLoaded | database | connection => false

end QueryErrorKind

/-- Why a query has failed. -/
structure QueryError where
  kind : QueryErrorKind
  message : String
  deriving DecidableEq, Repr

/-- The answer to a query: the names of the columns, also if there is no row, and the rows. -/
structure QueryResult where
  columns : List String
  rows : List ViewRow

/-- A database that answers queries with text parameters and knows its version. -/
class Source (σ : Type) where
  query : (sql : String) → (parameters : List String) → σ → Except QueryError QueryResult × σ
  serverVersion : σ → Option ServerVersion × σ

/-- Surroundings that can ask the collector to stop. -/
class Interruptible (σ : Type) where
  isRunning : σ → Bool

end QueryTelemetry
