import QueryTelemetry.CommandLine.Arguments
import QueryTelemetry.Settings

/-!
# Settings from the command line

The settings file, if there is one, gives the settings; the arguments override them. The result has
been validated.
-/

namespace QueryTelemetry

namespace CommandLine

/-- Why there are no settings to work with. -/
inductive PlanError
  /-- The settings file cannot be opened. -/
  | cannotOpen (path : String)
  /-- The settings file cannot be read. -/
  | cannotParse (path : String)
  /-- The settings make no sense. -/
  | invalid (problem : Settings.Problem)

/-- The message for an error. -/
def PlanError.message : PlanError → String
  | cannotOpen path => "cannot open " ++ path
  | cannotParse path => "cannot parse " ++ path
  | invalid problem => problem.message

namespace Arguments

/-- The settings in the settings file, or the defaults if none is given. -/
def baseSettings (file : String → Option String) (a : Arguments) : Except PlanError Settings :=
  match a.settingsFile with
  | none => .ok .default
  | some path =>
    match file path with
    | none => .error (.cannotOpen path)
    | some text =>
      match Settings.parse? text with
      | none => .error (.cannotParse path)
      | some settings => .ok settings

/-- The settings with those that the arguments give in place of their own. The database is always
the one that is connected to. A switch can be turned on, but not off; no tag at all leaves the tags
as they are. -/
def overlay (a : Arguments) (connected : String) (s : Settings) : Settings where
  collectionInterval := a.interval.getD s.collectionInterval
  view := a.view.getD s.view
  database := connected
  onlyDatabase := s.onlyDatabase || a.onlyDatabase.getD false
  rowLimit := a.rowLimit.getD s.rowLimit
  textCacheSize := a.textCacheSize.getD s.textCacheSize
  textsPerHour := a.textsPerHour.getD s.textsPerHour
  redactionOptions := s.redactionOptions
  tags := a.tags.getD s.tags
  host := a.host.getD s.host
  collectorVersion := s.collectorVersion

/-- The database to connect to: the one that is asked for, or else the usual one. -/
def connectedDatabase (a : Arguments) (usual : String) : String := a.database.getD usual

/-- The settings to work with. -/
def settings (file : String → Option String) (usualDatabase : String) (a : Arguments) :
    Except PlanError Settings := do
  let s := a.overlay (a.connectedDatabase usualDatabase) (← a.baseSettings file)
  match s.problem? with
  | some problem => .error (.invalid problem)
  | none => return s

end Arguments

end CommandLine

end QueryTelemetry
