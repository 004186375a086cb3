import QueryTelemetry.CommandLine.Plan
import QueryTelemetry.Connection.ConnectionString

/-!
# The command

Reads the arguments, the environment and the settings file, and shows the settings that the
collector would run with, or says what is wrong with them.
-/

namespace QueryTelemetry

namespace CommandLine

/-- What the options mean. -/
def usage : String :=
  "PostgreSQL query metrics collector daemon\n\n" ++
  "Usage: pgqmd [OPTIONS]\n\n" ++
  "Options:\n" ++
  "  -c, --config <PATH>                  JSON settings file\n" ++
  "  -i, --interval <INTERVAL>            Collection interval in seconds\n" ++
  "      --dbname <DBNAME>                Database to connect to\n" ++
  "      --dbstrict                       Only collect statements of that database\n" ++
  "      --view <VIEW>                    View exposing pg_stat_statements columns\n" ++
  "  -t, --tag <TAGS>                     Global tag (key:value)\n" ++
  "      --host <HOST>                    Host name reported in payloads\n" ++
  "      --samples-per-hour <RATE>        Full query texts per query and hour\n" ++
  "      --cache-size <CACHE_SIZE>        Capacity of the full text cache\n" ++
  "      --limit <LIMIT>                  Maximum rows fetched per cycle\n" ++
  "  -o, --output <PATH>                  Output file for JSON lines\n" ++
  "      --tls                            Connect with TLS\n" ++
  "  -v, --verbose                        Log more\n" ++
  "  -q, --quiet                          Log errors only\n" ++
  "  -h, --help                           Print help\n" ++
  "  -V, --version                        Print version"

/-- The answer to a refusal, and whether it is an error. -/
def Refusal.answer : Refusal → String × Bool
  | displayHelp => (usage, false)
  | displayVersion => ("pgqmd " ++ Settings.thisVersion, false)
  | unknownArgument => ("error: unexpected argument", true)
  | argumentConflict => ("error: an option cannot be used multiple times", true)
  | invalidValue => ("error: a value is required or invalid", true)
  | valueValidation => ("error: invalid value", true)
  | tooManyValues => ("error: unexpected value", true)

/-- One line about settings. -/
def summary (s : Settings) : String :=
  "Config: interval=" ++ Decimal.Layout.message.write s.interval.toSeconds ++ "s, database=" ++
    s.database ++ ", view=" ++ s.view ++ ", dbstrict=" ++ toString s.onlyDatabase

/-- The names of the environment variables that matter. -/
def variableNames : List String :=
  Arguments.environmentNames.map (·.1) ++
    ["PGUSER", "USER", "PGHOST", "PGPORT", "PGPASSWORD", "PGDATABASE"]

/-- Reads the environment variables that matter. -/
def readEnvironment : IO (String → Option String) := do
  let values ← variableNames.filterMapM fun name =>
    return (← IO.getEnv name).map (name, ·)
  return fun name => values.lookup name

/-- Reads the settings file, if one is given and it can be opened. -/
def readSettingsFile (a : Arguments) : IO (String → Option String) := do
  match a.settingsFile with
  | none => return fun _ => none
  | some path =>
    try
      let text ← IO.FS.readFile path
      return fun name => if name = path then some text else none
    catch _ => return fun _ => none

end CommandLine

end QueryTelemetry

open QueryTelemetry QueryTelemetry.CommandLine in
/-- Shows the settings. The exit code is one if they make no sense and two if the arguments do
not. -/
def main (arguments : List String) : IO UInt32 := do
  let environment ← readEnvironment
  match Arguments.parse environment arguments with
  | .error refusal =>
    let (text, isError) := refusal.answer
    if isError then
      IO.eprintln text
      return 2
    else
      IO.println text
      return 0
  | .ok a =>
    match Connection.ofEnvironment environment with
    | .error e =>
      IO.eprintln ("PostgreSQL connection settings: " ++ e.message)
      return 1
    | .ok (_, database) =>
      match a.settings (← readSettingsFile a) database with
      | .error e =>
        IO.eprintln ("Invalid configuration: " ++ e.message)
        return 1
      | .ok settings =>
        IO.println (summary settings)
        return 0
