import QueryTelemetry.Json.Value
import QueryTelemetry.Statement

/-!
# Events

Two kinds of events leave the collector: the full text of a statement, and the metrics of a cycle.
Metrics carry the first characters of each text only, under the same fingerprint, so that both can
be joined. This module has their contents and their form as JSON documents.
-/

namespace QueryTelemetry

/-- The version of the server: major, minor and patch level. -/
structure ServerVersion where
  major : Nat
  minor : Nat
  patch : Nat
  deriving DecidableEq, Repr

namespace ServerVersion

/-- The version as a text. -/
def render (v : ServerVersion) : String :=
  "v" ++ toString v.major ++ "." ++ toString v.minor ++ "." ++ toString v.patch

/-- The version as a text, empty if it is not known. -/
def renderOptional : Option ServerVersion → String
  | some v => v.render
  | none => ""

/-- Whether a version comes before another one. -/
def isBefore (a b : ServerVersion) : Bool :=
  a.major < b.major ||
    (a.major == b.major && (a.minor < b.minor || (a.minor == b.minor && a.patch < b.patch)))

/-- The version that a server gives as one number. Since version 10 it is ten thousand times the
major version plus the minor version; before that the minor version came in hundreds, and the patch
level after it. A negative number counts as zero. -/
def ofNumber (number : Int) : ServerVersion :=
  let n := number.toNat
  if 100000 ≤ n then ⟨n / 10000, n % 10000, 0⟩ else ⟨n / 10000, n / 100 % 100, n % 100⟩

end ServerVersion

/-- What all events of a cycle have in common. -/
structure EventContext where
  host : String
  /-- The version of the collector. -/
  collectorVersion : String
  /-- The tags of all events. They do not name a database: each row has its own. -/
  tags : List String
  /-- Milliseconds since the start of 1970. -/
  timestamp : Float

/-- The full text of a statement. -/
structure TextEvent where
  context : EventContext
  statement : String
  fingerprint : String
  database : Option String
  role : Option String

/-- The growth of the counters of one statement. -/
structure MetricsRow where
  metrics : Metrics
  /-- The first characters of the statement. -/
  query : String
  fingerprint : String
  database : Option String
  role : Option String
  queryId : Option Int64
  tables : Option (List String)
  commands : List String

/-- The metrics of a cycle. -/
structure MetricsEvent where
  context : EventContext
  /-- Seconds between cycles. -/
  interval : Float
  rows : List MetricsRow
  serverVersion : Option ServerVersion

/-- An event of either kind. -/
inductive Event
  | text (event : TextEvent)
  | metrics (event : MetricsEvent)

/-! ### From statements to events -/

/-- The longest text in a row of metrics. -/
def longestQuery : Nat := 200

/-- The first `length` characters of a text. -/
def truncate (text : String) (length : Nat) : String := String.ofList (text.toList.take length)

/-- The event with the full text of a statement. -/
def TextEvent.ofStatement (context : EventContext) (s : NormalStatement) : TextEvent where
  context
  statement := s.statement.query
  fingerprint := s.fingerprint
  database := s.statement.database
  role := s.statement.role

/-- The row with the metrics of a statement. -/
def MetricsRow.ofStatement (s : NormalStatement) : MetricsRow where
  metrics := s.statement.metrics
  query := truncate s.statement.query longestQuery
  fingerprint := s.fingerprint
  database := s.statement.database
  role := s.statement.role
  queryId := s.statement.queryId
  tables := s.mentions.tables?
  commands := s.mentions.commands

/-- The event with the metrics of the statements of a cycle. -/
def MetricsEvent.ofStatements (context : EventContext) (interval : Float)
    (serverVersion : Option ServerVersion) (statements : List NormalStatement) : MetricsEvent where
  context
  interval
  rows := statements.map MetricsRow.ofStatement
  serverVersion

/-! ### Documents -/

open Json (Value)

/-- The name of the database system in events. -/
def eventSource : String := "postgres"

/-- A counter as a JSON value. -/
def Counter.toJson : Counter → Value
  | .whole n => .whole n.toInt
  | .real x => .real x

/-- The contents of a text event. -/
structure TextPayload where
  timestamp : Float
  host : String
  collectorVersion : String
  source : String
  tags : String
  kind : String
  instanceName : Option String
  fingerprint : String
  statement : String
  database : Option String
  role : Option String

/-- The contents of a metrics event. -/
structure MetricsPayload where
  host : String
  timestamp : Float
  interval : Float
  tags : List String
  rows : List MetricsRow
  serverVersion : String
  collectorVersion : String

/-- The contents of an event of either kind. -/
inductive Payload
  | text (payload : TextPayload)
  | metrics (payload : MetricsPayload)

/-- The tags of a text event: those of the context and the names of database and role, in one
text. -/
def TextEvent.tagText (e : TextEvent) : String :=
  ",".intercalate (e.context.tags ++ (e.database.map ("db:" ++ ·)).toList ++
    (e.role.map ("rolname:" ++ ·)).toList)

/-- What a text event contains. -/
def TextEvent.payload (e : TextEvent) : TextPayload where
  timestamp := e.context.timestamp
  host := e.context.host
  collectorVersion := e.context.collectorVersion
  source := eventSource
  tags := e.tagText
  kind := "fqt"
  instanceName := e.database
  fingerprint := e.fingerprint
  statement := e.statement
  database := e.database
  role := e.role

/-- What a metrics event contains. -/
def MetricsEvent.payload (e : MetricsEvent) : MetricsPayload where
  host := e.context.host
  timestamp := e.context.timestamp
  interval := e.interval
  tags := e.context.tags
  rows := e.rows
  serverVersion := ServerVersion.renderOptional e.serverVersion
  collectorVersion := e.context.collectorVersion

/-- What an event contains. -/
def Event.payload : Event → Payload
  | text event => .text event.payload
  | metrics event => .metrics event.payload

/-- The document of a text event. -/
def TextPayload.toJson (p : TextPayload) : Value :=
  .record [
    ("timestamp", .real p.timestamp),
    ("host", .text p.host),
    ("ddagentversion", .text p.collectorVersion),
    ("ddsource", .text p.source),
    ("ddtags", .text p.tags),
    ("dbm_type", .text p.kind),
    ("db", .record [
      ("instance", .ofText? p.instanceName),
      ("query_signature", .text p.fingerprint),
      ("statement", .text p.statement)]),
    ("postgres", .record [
      ("datname", .ofText? p.database),
      ("rolname", .ofText? p.role)])]

/-- A member that is left out if there is no value. -/
def optionalMember (name : String) (value : Option Value) : List (String × Value) :=
  (value.map (name, ·)).toList

/-- The counters of a row that are there. -/
def Metrics.members (m : Metrics) : List (String × Value) :=
  m.toList.map fun (metric, value) => (metric.column, value.toJson)

/-- What a row of metrics says about the statement. -/
def MetricsRow.statementMembers (r : MetricsRow) : List (String × Value) :=
  [("query", .text r.query), ("query_signature", .text r.fingerprint)] ++
    optionalMember "datname" (r.database.map .text) ++
    optionalMember "rolname" (r.role.map .text) ++
    optionalMember "queryid" (r.queryId.map fun n => .whole n.toInt) ++
    [("dd_tables", .ofTexts? r.tables), ("dd_commands", .ofTexts r.commands)]

/-- The document of a row of metrics: the counters that are there, then what is known about the
statement. -/
def MetricsRow.toJson (r : MetricsRow) : Value :=
  .record (r.metrics.members ++ r.statementMembers)

/-- The document of a metrics event. -/
def MetricsPayload.toJson (p : MetricsPayload) : Value :=
  .record [
    ("host", .text p.host),
    ("timestamp", .real p.timestamp),
    ("min_collection_interval", .real p.interval),
    ("tags", .ofTexts p.tags),
    ("postgres_rows", .list (p.rows.map MetricsRow.toJson)),
    ("postgres_version", .text p.serverVersion),
    ("ddagentversion", .text p.collectorVersion)]

namespace Payload

/-- The tag of an event that says of which kind it is. -/
def tag : Payload → String
  | text _ => "dbm-samples"
  | metrics _ => "dbm-metrics"

/-- The document of the contents without the tag. -/
def body : Payload → Value
  | text payload => payload.toJson
  | metrics payload => payload.toJson

/-- The document of an event, with its tag. -/
def toJson (p : Payload) : Value :=
  .record [("type", .text p.tag), ("event", p.body)]

/-- The text of an event, without a line break at its end. -/
def render (p : Payload) : String := p.toJson.render

end Payload

/-- The text of an event, without a line break at its end. -/
def Event.render (e : Event) : String := e.payload.render

end QueryTelemetry
