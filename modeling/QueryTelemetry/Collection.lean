import QueryTelemetry.Baselines
import QueryTelemetry.Catalog
import QueryTelemetry.Decimal.Reading
import QueryTelemetry.Delivery
import QueryTelemetry.Diagnostic
import QueryTelemetry.Redaction
import QueryTelemetry.Sampling
import QueryTelemetry.Settings
import QueryTelemetry.Source

/-!
# Collection cycles

In a cycle the collector finds out the columns of the view unless it knows them, fetches the
statistics, reports how full the view is, takes the data out of the statements, turns totals into
growth, and sends the full texts that are due and the metrics. A query that fails is counted and
ends the cycle; the next one starts over. Before the queries and after them the cycle stops if it
has been asked to.

The part of a cycle that talks to the source is a state computation over `Inquiry`: the source, the
known columns, and the diagnostics and log entries so far.
-/

namespace QueryTelemetry

/-! ### Names of metrics and texts of the log -/

namespace Collection

/-- Counts cycles that a query or the columns of the view have ended. -/
def errorMetric : String := "dd.postgres.statement_metrics.error"

/-- The tag for missing columns. -/
def missingColumnsTag : String := "error:database-missing_pg_stat_statements_required_columns"

/-- Shows the number of rows of a cycle. -/
def rowsMetric : String := "dd.postgres.queries.query_rows_raw"

/-- Shows the number of statements in the view. -/
def countMetric : String := "postgresql.pg_stat_statements.count"

/-- Shows the number of statements for which the view has room. -/
def capacityMetric : String := "postgresql.pg_stat_statements.max"

end Collection

/-- How a cycle has ended. -/
inductive CycleOutcome
  /-- The metrics have been sent, after a number of full texts. -/
  | emitted (rows texts : Nat)
  /-- There was nothing to report. -/
  | noRows
  /-- The collector was asked to stop. -/
  | cancelled
  /-- An event could not be delivered. -/
  | failed
  deriving DecidableEq, Repr

/-! ### Talking to the source -/

/-- What changes while the collector talks to the source. -/
structure Inquiry (σ : Type) where
  source : σ
  columns : ColumnCache
  /-- The samples of this cycle. -/
  diagnostics : List Diagnostic
  /-- The log of this cycle. -/
  log : List LogEntry

namespace Inquiry

variable {σ : Type} [Source σ]

/-- Adds a sample. -/
def report (d : Diagnostic) : StateM (Inquiry σ) Unit :=
  modify fun i => { i with diagnostics := i.diagnostics ++ [d] }

/-- Adds a log entry. -/
def note (entry : LogEntry) : StateM (Inquiry σ) Unit :=
  modify fun i => { i with log := i.log ++ [entry] }

/-- Asks the source. If the answer casts doubt on the known columns, they are forgotten. -/
def ask (sql : String) (parameters : List String) :
    StateM (Inquiry σ) (Except QueryError QueryResult) := do
  let i ← get
  let (answer, source) := Source.query sql parameters i.source
  let columns :=
    match answer with
    | .error e => if e.kind.doubtsColumns then .empty else i.columns
    | .ok _ => i.columns
  set { i with source, columns }
  return answer

/-- Counts the error that has ended the cycle. -/
def countError (settings : Settings) (tag : String) : StateM (Inquiry σ) Unit :=
  report ⟨.count, Collection.errorMetric, 1.0, settings.tags ++ [tag]⟩

/-- Reports a query that has ended the cycle. -/
def queryFailed (settings : Settings) (e : QueryError) : StateM (Inquiry σ) Unit := do
  note (.ofTexts .warning "unable to collect statement metrics"
    [("database", settings.database), ("kind", e.kind.name), ("error", e.message)])
  countError settings e.kind.tag

/-- The columns of the view: those that are known, or else what the source says. -/
def availableColumns (settings : Settings) :
    StateM (Inquiry σ) (Except QueryError (List String)) := do
  match (← get).columns.columns with
  | some columns => return .ok columns
  | none =>
    match ← ask (Catalog.discoveryQuery settings.view) [] with
    | .error e => return .error e
    | .ok result =>
      modify fun i => { i with columns := .fill result.columns }
      return .ok (Text.sortedSet result.columns)

/-- The query for the statistics in a view with these columns, and its parameters. -/
def statisticsRequest (settings : Settings) (available : List String) : String × List String :=
  let columns := ", ".intercalate (Catalog.selectedColumns available)
  if settings.onlyDatabase then
    (Catalog.statisticsQuery columns settings.view Catalog.databaseFilter settings.rowLimit,
      [settings.database])
  else (Catalog.statisticsQuery columns settings.view "" settings.rowLimit, [])

/-- The rows of the statistics; none if they cannot be had. -/
def fetch (settings : Settings) : StateM (Inquiry σ) (List ViewRow) := do
  match ← availableColumns settings with
  | .error e =>
    queryFailed settings e
    return []
  | .ok available =>
    let missing := Catalog.missingColumns available
    if missing.isEmpty then
      let (sql, parameters) := statisticsRequest settings available
      match ← ask sql parameters with
      | .error e =>
        queryFailed settings e
        return []
      | .ok result => return result.rows
    else
      note (.ofTexts .warning
        "unable to collect statement metrics because required columns are missing"
        [("view", settings.view), ("missing", ", ".intercalate missing)])
      countError settings Collection.missingColumnsTag
      return []

/-- The number in a column of the first row. A text is read as a number. -/
def firstNumber? (column : String) (result : QueryResult) : Option Float :=
  match result.rows.head?.bind (·.get? column) with
  | some (.whole n) => some n.toFloat
  | some (.real x) => some x
  | some (.text s) => Decimal.float? (Text.trim s.toList)
  | some .null => none
  | none => none

/-- Reports the number that a query returns. -/
def reportNumber (settings : Settings) (metric sql column : String) :
    StateM (Inquiry σ) Unit := do
  match ← ask sql [] with
  | .error e =>
    note (.ofTexts .warning "failed to read pg_stat_statements capacity"
      [("metric", metric), ("error", e.message)])
  | .ok result =>
    match firstNumber? column result with
    | some value => report ⟨.count, metric, value, settings.tags⟩
    | none => note (.ofTexts .warning "query returned no usable value" [("metric", metric)])

/-- The version of the server, if the source knows it. -/
def serverVersion : StateM (Inquiry σ) (Option ServerVersion) := do
  let i ← get
  let (version, source) := Source.serverVersion i.source
  set { i with source }
  return version

/-- The first version of the server that can leave the texts out of the view. -/
def firstWithoutTexts : ServerVersion := ⟨9, 4, 0⟩

/-- The query for the number of statements in the view that a server understands. -/
def countQueryFor : Option ServerVersion → String
  | some version =>
    if version.isBefore firstWithoutTexts then Catalog.countQueryWithTexts else Catalog.countQuery
  | none => Catalog.countQuery

/-- Reports how many statements are in the view and for how many it has room. -/
def reportOccupancy (settings : Settings) : StateM (Inquiry σ) Unit := do
  let version ← serverVersion
  reportNumber settings Collection.countMetric (countQueryFor version) "count"
  reportNumber settings Collection.capacityMetric Catalog.capacityQuery "setting"

/-- Whether the collector may go on. -/
def isRunning [Interruptible σ] : StateM (Inquiry σ) Bool :=
  return Interruptible.isRunning (← get).source

/-- Everything that is to be asked in a cycle: the rows of the statistics, at least one, or else
how the cycle has ended. -/
def gather [Interruptible σ] (settings : Settings) :
    StateM (Inquiry σ) (Except CycleOutcome (List ViewRow)) := do
  if !(← isRunning) then
    return .error .cancelled
  let rows ← fetch settings
  if rows.isEmpty then
    return .error .noRows
  reportOccupancy settings
  if !(← isRunning) then
    return .error .cancelled
  return .ok rows

end Inquiry

/-! ### The collector -/

/-- A collector, with what it remembers from one cycle to the next. -/
structure Collector where
  settings : Settings
  /-- Takes the data out of a statement. -/
  redact : String → Except Redaction.Failure Redaction.Redacted
  columns : ColumnCache
  baselines : Baselines Identity
  seen : Sampling.Seen

/-- What a cycle leaves behind: how it has ended, its diagnostics and its log, and the collector,
the source and the sink for the next one. -/
structure CycleReport (σ τ : Type) where
  outcome : CycleOutcome
  diagnostics : List Diagnostic
  log : List LogEntry
  collector : Collector
  source : σ
  sink : τ

namespace Collector

variable {σ τ : Type} [Source σ] [Interruptible σ] [EventSink τ]

/-- A collector that has not seen anything yet, for settings without a problem. -/
def create (redact : (options : String) → String → Except Redaction.Failure Redaction.Redacted)
    (settings : Settings) : Except Settings.Problem Collector :=
  match settings.problem? with
  | some problem => .error problem
  | none => .ok {
      settings
      redact := redact settings.redactionOptionsText
      columns := .empty
      baselines := .empty
      seen := .empty settings.textCacheSize settings.textLifetime }

/-- The counters that are compared from cycle to cycle: those of the first statement. -/
def watchedMetrics : List NormalStatement → List Metric
  | [] => []
  | first :: _ => first.statement.metrics.present

/-- What all events of a cycle have in common. -/
def eventContext (settings : Settings) (timestamp : Float) : EventContext where
  host := settings.host
  collectorVersion := settings.collectorVersion
  tags := settings.tagsWithoutDatabase
  timestamp

/-- Sends the full texts that are due. Each is sent before the next one is drawn, and the first that
is refused is the last. -/
def sendTexts (context : EventContext) (now : Instant) (statements : List NormalStatement)
    (seen : Sampling.Seen) (sink : τ) : Except DeliveryError Nat × Sampling.Seen × τ :=
  match _ : Sampling.next context now statements seen with
  | (none, seen) => (.ok 0, seen, sink)
  | (some (event, rest), seen) =>
    match EventSink.send (.text event) sink with
    | (.error e, sink) => (.error e, seen, sink)
    | (.ok (), sink) =>
      let (sent, seen, sink) := sendTexts context now rest seen sink
      (sent.map (· + 1), seen, sink)
termination_by statements.length
decreasing_by exact Sampling.length_lt_of_next (by assumption)

/-- Sends the events of a cycle: the full texts that are due, then the metrics. -/
def sendEvents (settings : Settings) (now : Instant) (timestamp : Float)
    (growth : List NormalStatement) (seen : Sampling.Seen) (source : σ) (sink : τ) :
    Except DeliveryError CycleOutcome × Sampling.Seen × σ × τ :=
  let context := eventContext settings timestamp
  match sendTexts context now growth seen sink with
  | (.error e, seen, sink) => (.error e, seen, source, sink)
  | (.ok texts, seen, sink) =>
    let (version, source) := Source.serverVersion source
    let event :=
      MetricsEvent.ofStatements context settings.interval.toSeconds version growth
    match EventSink.send (.metrics event) sink with
    | (.error e, sink) => (.error e, seen, source, sink)
    | (.ok (), sink) => (.ok (.emitted growth.length texts), seen, source, sink)

/-- The log entry for an event that could not be delivered. -/
def deliveryFailed (settings : Settings) (e : DeliveryError) : LogEntry :=
  .ofTexts .error "statement metrics cycle failed"
    [("database", settings.database), ("error", "failed to emit payload: " ++ e.message)]

/-- The sample that shows the number of rows of a cycle. -/
def rowsSample (settings : Settings) (growth : List NormalStatement) : Diagnostic :=
  ⟨.gauge, Collection.rowsMetric, Float.ofNat growth.length, settings.tags⟩

/-- Ends a cycle in which totals have been compared: there is nothing to send if nothing has grown,
and a failure to send is logged. -/
def finish (now : Instant) (timestamp : Float) (growth : List NormalStatement) (c : Collector)
    (i : Inquiry σ) (sink : τ) : CycleReport σ τ :=
  let diagnostics := i.diagnostics ++ [rowsSample c.settings growth]
  if growth.isEmpty then ⟨.noRows, diagnostics, i.log, c, i.source, sink⟩
  else
    let (sent, seen, source, sink) :=
      sendEvents c.settings now timestamp growth c.seen i.source sink
    let c := { c with seen }
    match sent with
    | .ok outcome => ⟨outcome, diagnostics, i.log, c, source, sink⟩
    | .error e => ⟨.failed, diagnostics, i.log ++ [deliveryFailed c.settings e], c, source, sink⟩

/-- Runs a cycle at the instant `now`, with `timestamp` in its events. -/
def runCycle (now : Instant) (timestamp : Float) (c : Collector) (source : σ) (sink : τ) :
    CycleReport σ τ :=
  let (gathered, i) := (Inquiry.gather c.settings).run ⟨source, c.columns, [], []⟩
  let c := { c with columns := i.columns }
  match gathered with
  | .error outcome => ⟨outcome, i.diagnostics, i.log, c, i.source, sink⟩
  | .ok rows =>
    let statements := Redaction.normalStatements c.redact rows
    if statements.isEmpty then ⟨.noRows, i.diagnostics, i.log, c, i.source, sink⟩
    else
      let (growth, baselines) :=
        c.baselines.advance (watchedMetrics statements) NormalStatement.identity statements
      finish now timestamp growth { c with baselines } i sink

end Collector

end QueryTelemetry
