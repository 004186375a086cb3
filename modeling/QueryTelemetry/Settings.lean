import QueryTelemetry.Decimal.Layout
import QueryTelemetry.Duration
import QueryTelemetry.Json.Reading

/-!
# Settings of the collector

The settings come as a JSON text; every setting has a default. Not everything that can be read
makes sense: `validate` says what does. The durations that follow from the settings have fallbacks,
so that they exist for every settings; after validation the fallbacks are not needed, apart from
the default interval for an interval that is not positive.
-/

namespace QueryTelemetry

/-- The settings of a collector. -/
structure Settings where
  /-- Seconds between cycles; the default is taken if it is not positive. -/
  collectionInterval : Float
  /-- The statistics view, possibly with its schema. -/
  view : String
  /-- The database that is connected to. -/
  database : String
  /-- Whether only statements that ran in that database are collected. -/
  onlyDatabase : Bool
  /-- The most rows that are fetched in a cycle. -/
  rowLimit : Nat
  /-- How many identities are remembered to limit full texts. -/
  textCacheSize : Nat
  /-- How often the full text of a statement is sent per hour. -/
  textsPerHour : Float
  /-- Options of the redaction. -/
  redactionOptions : Json.Value
  /-- Tags of all events. -/
  tags : List String
  /-- The name of the host. -/
  host : String
  /-- The version of the collector. -/
  collectorVersion : String

namespace Settings

/-- The version of this collector. -/
def thisVersion : String := "0.1.0"

/-- The default of seconds between cycles. -/
def defaultInterval : Duration := Duration.ofWholeSeconds 10

/-- The settings if nothing is said. -/
def default : Settings where
  collectionInterval := 10.0
  view := "pg_stat_statements"
  database := "postgres"
  onlyDatabase := false
  rowLimit := 10000
  textCacheSize := 10000
  textsPerHour := 1.0
  redactionOptions := .record []
  tags := []
  host := ""
  collectorVersion := thisVersion

/-! ### Reading settings -/

/-- The names of the settings in a JSON text, in order. -/
def names : List String :=
  ["collection_interval", "pg_stat_statements_view", "dbname", "dbstrict", "statements_limit",
    "full_statement_text_cache_max_size", "full_statement_text_samples_per_hour_per_query",
    "obfuscator_options", "tags", "host", "agent_version"]

/-- How many lists and records the options of the redaction may have inside one another: one less
than 127, since the settings are a record themselves. -/
def optionLevels : Nat := 126

open Json.Node in
/-- The settings that a part of a JSON text gives. -/
def ofNode? (node : Json.Node) : Option Settings :=
  match node.fields? names with
  | some [interval, view, database, onlyDatabase, rowLimit, textCacheSize, textsPerHour,
      redactionOptions, tags, host, collectorVersion] => do
    let collectionInterval ← orDefault float? default.collectionInterval interval
    let view ← orDefault text? default.view view
    let database ← orDefault text? default.database database
    let onlyDatabase ← orDefault bool? default.onlyDatabase onlyDatabase
    let rowLimit ← orDefault (natural? (2 ^ 32)) default.rowLimit rowLimit
    let textCacheSize ← orDefault (natural? (2 ^ 64)) default.textCacheSize textCacheSize
    let textsPerHour ← orDefault float? default.textsPerHour textsPerHour
    let redactionOptions ←
      orDefault (value? optionLevels) default.redactionOptions redactionOptions
    let tags ← orDefault texts? default.tags tags
    let host ← orDefault text? default.host host
    let collectorVersion ← orDefault text? default.collectorVersion collectorVersion
    some { collectionInterval, view, database, onlyDatabase, rowLimit, textCacheSize, textsPerHour,
           redactionOptions, tags, host, collectorVersion }
  | _ => none

/-- The settings that a JSON text gives. -/
def parse? (text : String) : Option Settings := (Json.Node.parse? text).bind ofNode?

/-! ### Which settings make sense -/

/-- What is wrong with settings. -/
inductive Problem
  /-- The rate of full texts is not a positive number. -/
  | rateNotPositive (rate : Float)
  /-- The rate is so small that the time between two texts is no duration. -/
  | rateTooSmall (rate : Float)
  /-- The interval is not a number or no duration. -/
  | intervalOutOfRange (interval : Float)
  /-- No identity could be remembered. -/
  | noTextCache
  /-- No row would be fetched. -/
  | noRows
  /-- The view could not be put into a query. -/
  | viewNotPlain (view : String)

/-- The message for a problem. It names the setting. -/
def Problem.message : Problem → String
  | rateNotPositive rate =>
    "invalid full_statement_text_samples_per_hour_per_query: must be a positive number, got " ++
      Decimal.Layout.message.write rate
  | rateTooSmall rate =>
    "invalid full_statement_text_samples_per_hour_per_query: " ++
      Decimal.Layout.message.write rate ++ " gives an expiry too long to represent"
  | intervalOutOfRange interval =>
    "invalid collection_interval: " ++ Decimal.Layout.message.write interval ++
      " seconds is out of range"
  | noTextCache => "invalid full_statement_text_cache_max_size: must be greater than zero"
  | noRows => "invalid statements_limit: must be greater than zero"
  | viewNotPlain view =>
    "invalid pg_stat_statements_view: '" ++ view ++ "' is not a plain relation name"

/-- Seconds between two full texts of a statement. -/
def secondsPerText (s : Settings) : Float := 3600.0 / s.textsPerHour

/-- Whether a name consists of letters and digits of ASCII, underscores and points. Such a name can
be put into a query. -/
def isPlainName (name : String) : Bool :=
  !name.isEmpty && name.toList.all fun c => c.isAlphanum || c == '_' || c == '.'

/-- The first problem with the settings, if there is one. -/
def problem? (s : Settings) : Option Problem :=
  if !(s.textsPerHour.isFinite && 0.0 < s.textsPerHour) then
    some (.rateNotPositive s.textsPerHour)
  else if (Duration.ofSeconds? s.secondsPerText).isNone then some (.rateTooSmall s.textsPerHour)
  else if s.collectionInterval.isNaN ||
      (0.0 < s.collectionInterval && (Duration.ofSeconds? s.collectionInterval).isNone) then
    some (.intervalOutOfRange s.collectionInterval)
  else if s.textCacheSize = 0 then some .noTextCache
  else if s.rowLimit = 0 then some .noRows
  else if !isPlainName s.view then some (.viewNotPlain s.view)
  else none

/-- Settings without a problem. -/
def validate (s : Settings) : Except Problem Unit :=
  match s.problem? with
  | some problem => .error problem
  | none => .ok ()

/-! ### What follows from the settings -/

/-- The time between cycles. -/
def interval (s : Settings) : Duration :=
  if 0.0 < s.collectionInterval then
    (Duration.ofSeconds? s.collectionInterval).getD defaultInterval
  else defaultInterval

/-- The time between two full texts of a statement. -/
def textLifetime (s : Settings) : Duration :=
  (Duration.ofSeconds? s.secondsPerText).getD Duration.longest

/-- The options of the redaction as a JSON text. -/
def redactionOptionsText (s : Settings) : String := s.redactionOptions.render

/-- The tags that do not name a database. -/
def tagsWithoutDatabase (s : Settings) : List String :=
  s.tags.filter fun tag => !"db:".toList.isPrefixOf tag.toList

end Settings

end QueryTelemetry
