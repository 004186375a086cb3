/-!
# How the collector itself is doing

A `Diagnostic` is a sample of a metric of the collector: an error that has been counted, a number
of rows. A `LogEntry` is a line of its log, with named fields.
-/

namespace QueryTelemetry

/-- How samples of a metric are to be read. -/
inductive DiagnosticKind
  /-- Values add up. -/
  | count
  /-- The last value counts. -/
  | gauge
  deriving DecidableEq, Repr

/-- A sample of a metric. -/
structure Diagnostic where
  kind : DiagnosticKind
  metric : String
  value : Float
  tags : List String

namespace Diagnostic

/-- The samples of a metric, in order. -/
def named (metric : String) (samples : List Diagnostic) : List Diagnostic :=
  samples.filter fun sample => sample.metric = metric

/-- The last value of a metric. -/
def last? (metric : String) (samples : List Diagnostic) : Option Float :=
  (named metric samples).getLast?.map Diagnostic.value

end Diagnostic

/-- How serious a log entry is. -/
inductive LogLevel
  | info
  | warning
  | error
  deriving DecidableEq, Repr

/-- The value of a field. -/
inductive LogValue
  | text (s : String)
  | real (x : Float)

/-- A line of the log. -/
structure LogEntry where
  level : LogLevel
  message : String
  fields : List (String × LogValue)

namespace LogEntry

/-- An entry whose fields are texts. -/
def ofTexts (level : LogLevel) (message : String) (fields : List (String × String)) : LogEntry :=
  ⟨level, message, fields.map fun (name, value) => (name, .text value)⟩

end LogEntry

/-- The name of a kind in the log. -/
def DiagnosticKind.name : DiagnosticKind → String
  | count => "count"
  | gauge => "gauge"

/-- The log entry that reports a sample. -/
def Diagnostic.toLogEntry (d : Diagnostic) : LogEntry where
  level := .info
  message := "diagnostic"
  fields := [("metric", .text d.metric), ("value", .real d.value),
    ("tags", .text (",".intercalate d.tags)), ("kind", .text d.kind.name)]

end QueryTelemetry
