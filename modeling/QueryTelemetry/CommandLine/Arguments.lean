import QueryTelemetry.Decimal.Reading
import QueryTelemetry.Text.Blank

/-!
# Arguments of the command

The arguments are read from left to right. An option is settled only when the next one begins, or
at the end; that is when its value is looked at. An argument that is no option at all is refused
at once, also if an option before it is not settled yet. Options that are not given may be set by
environment variables, which are read after the arguments.
-/

namespace QueryTelemetry

namespace CommandLine

/-- Why the arguments are not accepted, or need nothing but an answer. -/
inductive Refusal
  /-- There is no such option, and there are no other arguments. -/
  | unknownArgument
  /-- An option that may be given once is given again. -/
  | argumentConflict
  /-- An option lacks its value, or a switch is set to something else than true or false. -/
  | invalidValue
  /-- The value of an option is not a number of the right kind. -/
  | valueValidation
  /-- A switch is given a value. -/
  | tooManyValues
  /-- The help is asked for. -/
  | displayHelp
  /-- The version is asked for. -/
  | displayVersion
  deriving DecidableEq, Repr

/-- The options that have a value. -/
inductive ValueOption
  | settingsFile
  | interval
  | database
  | view
  | tags
  | host
  | textsPerHour
  | textCacheSize
  | rowLimit
  | output
  deriving DecidableEq, Repr

/-- The options that have no value. -/
inductive Switch
  | onlyDatabase
  | tls
  | verbose
  | quiet
  | help
  | version
  deriving DecidableEq, Repr

/-- An option of either kind. -/
inductive AnyOption
  | value (o : ValueOption)
  | switch (s : Switch)

/-- The option with a long name. -/
def longOption? : String → Option AnyOption
  | "config" => some (.value .settingsFile)
  | "interval" => some (.value .interval)
  | "dbname" => some (.value .database)
  | "dbstrict" => some (.switch .onlyDatabase)
  | "view" => some (.value .view)
  | "tag" => some (.value .tags)
  | "host" => some (.value .host)
  | "samples-per-hour" => some (.value .textsPerHour)
  | "cache-size" => some (.value .textCacheSize)
  | "limit" => some (.value .rowLimit)
  | "output" => some (.value .output)
  | "tls" => some (.switch .tls)
  | "verbose" => some (.switch .verbose)
  | "quiet" => some (.switch .quiet)
  | "help" => some (.switch .help)
  | "version" => some (.switch .version)
  | _ => none

/-- The option with a short name. -/
def shortOption? : Char → Option AnyOption
  | 'c' => some (.value .settingsFile)
  | 'i' => some (.value .interval)
  | 't' => some (.value .tags)
  | 'o' => some (.value .output)
  | 'v' => some (.switch .verbose)
  | 'q' => some (.switch .quiet)
  | 'h' => some (.switch .help)
  | 'V' => some (.switch .version)
  | _ => none

/-- What the arguments say. -/
structure Arguments where
  settingsFile : Option String
  interval : Option Float
  database : Option String
  onlyDatabase : Option Bool
  view : Option String
  /-- All tags that have been given; none if the option has not been given. -/
  tags : Option (List String)
  host : Option String
  textsPerHour : Option Float
  textCacheSize : Option Nat
  rowLimit : Option Nat
  output : Option String
  tls : Option Bool
  /-- How often more words have been asked for, up to 255. -/
  verbosity : Nat
  quiet : Option Bool

namespace Arguments

/-- No arguments. -/
def empty : Arguments where
  settingsFile := none
  interval := none
  database := none
  onlyDatabase := none
  view := none
  tags := none
  host := none
  textsPerHour := none
  textCacheSize := none
  rowLimit := none
  output := none
  tls := none
  verbosity := 0
  quiet := none

/-! ### One option -/

/-- The value of an option that may be given once. -/
private def once (before : Option α) (value : Except Refusal α) : Except Refusal (Option α) :=
  match before with
  | some _ => .error .argumentConflict
  | none => value.map some

/-- A path; it is not empty. -/
private def path (value : String) : Except Refusal String :=
  if value.isEmpty then .error .invalidValue else .ok value

/-- A number as a double. -/
private def real (value : String) : Except Refusal Float :=
  match Decimal.float? value.toList with
  | some x => .ok x
  | none => .error .valueValidation

/-- A whole number from zero up to a bound, which is left out. -/
private def below (bound : Nat) (number : Option Int) : Except Refusal Nat :=
  match number with
  | some n => if 0 ≤ n ∧ n < bound then .ok n.toNat else .error .valueValidation
  | none => .error .valueValidation

/-- A size: a whole number of 64 bits, which has no minus sign even if it is zero. -/
private def size (value : String) : Except Refusal Nat :=
  below (2 ^ 64) ((Decimal.natural? value.toList).map Int.ofNat)

/-- A number of rows: a whole number of 32 bits. It may have either sign, so that a zero with a
minus is a zero. -/
private def rowCount (value : String) : Except Refusal Nat :=
  below (2 ^ 32) (Decimal.integer? value.toList)

/-- The tags in a value, with commas between them. Empty parts count. -/
def tagsIn (value : String) : List String :=
  (Text.splitAt ',' value.toList).map String.ofList

/-- Takes in an option with its value. -/
def take (a : Arguments) (value : String) : ValueOption → Except Refusal Arguments
  | .settingsFile => do return { a with settingsFile := ← once a.settingsFile (path value) }
  | .interval => do return { a with interval := ← once a.interval (real value) }
  | .database => do return { a with database := ← once a.database (.ok value) }
  | .view => do return { a with view := ← once a.view (.ok value) }
  | .tags => return { a with tags := some (a.tags.getD [] ++ tagsIn value) }
  | .host => do return { a with host := ← once a.host (.ok value) }
  | .textsPerHour => do return { a with textsPerHour := ← once a.textsPerHour (real value) }
  | .textCacheSize => do return { a with textCacheSize := ← once a.textCacheSize (size value) }
  | .rowLimit => do return { a with rowLimit := ← once a.rowLimit (rowCount value) }
  | .output => do return { a with output := ← once a.output (path value) }

/-- The greatest verbosity. -/
def mostVerbose : Nat := 255

/-- Takes in a switch. -/
def turnOn (a : Arguments) : Switch → Except Refusal Arguments
  | .onlyDatabase => do return { a with onlyDatabase := ← once a.onlyDatabase (.ok true) }
  | .tls => do return { a with tls := ← once a.tls (.ok true) }
  | .verbose => return { a with verbosity := min (a.verbosity + 1) mostVerbose }
  | .quiet => do return { a with quiet := ← once a.quiet (.ok true) }
  | .help => .error .displayHelp
  | .version => .error .displayVersion

end Arguments

/-! ### All arguments -/

/-- What has been read: the options that are settled, and the one that is not, with its value if
there has been one. -/
structure Reader where
  settled : Arguments
  pending : Option (ValueOption × Option String)

namespace Reader

/-- Settles the last option. -/
def settle (r : Reader) : Except Refusal Arguments :=
  match r.pending with
  | none => .ok r.settled
  | some (_, none) => .error .invalidValue
  | some (o, some value) => r.settled.take value o

/-- Begins an option whose value comes next. -/
def beginOption (r : Reader) (o : ValueOption) : Except Refusal Reader := do
  return ⟨← r.settle, some (o, none)⟩

/-- Takes in an option that comes with its value. -/
def takeAttached (r : Reader) (o : ValueOption) (value : String) : Except Refusal Reader := do
  return ⟨← (← r.settle).take value o, none⟩

/-- Takes in a switch. -/
def turnOn (r : Reader) (s : Switch) : Except Refusal Reader := do
  return ⟨← (← r.settle).turnOn s, none⟩

/-- Reads an option with a long name, without the two dashes. -/
def readLong (r : Reader) (text : List Char) : Except Refusal Reader :=
  let name := String.ofList (text.takeWhile (· != '='))
  match longOption? name, text.dropWhile (· != '=') with
  | none, _ => .error .unknownArgument
  | some (.value o), _ :: value => r.takeAttached o (String.ofList value)
  | some (.value o), [] => r.beginOption o
  | some (.switch _), _ :: _ => .error .tooManyValues
  | some (.switch s), [] => r.turnOn s

/-- Reads options with short names that are written together, without the dash. What follows an
option with a value is its value, after an equals sign or not. -/
def readShort (r : Reader) : List Char → Except Refusal Reader
  | [] => .ok r
  | c :: rest =>
    match shortOption? c with
    | none => .error .unknownArgument
    | some (.switch s) => do (← r.turnOn s).readShort rest
    | some (.value o) =>
      match rest with
      | [] => r.beginOption o
      | '=' :: value => r.takeAttached o (String.ofList value)
      | value => r.takeAttached o (String.ofList value)

/-- Reads an argument that is no option: the value of the option before it. -/
def readPlain (r : Reader) (value : String) : Except Refusal Reader :=
  match r.pending with
  | some (o, none) => .ok { r with pending := some (o, some value) }
  | _ => .error .unknownArgument

/-- Reads the rest of the arguments. After two dashes there are only arguments that are no options,
and those are not accepted. -/
def readAll (r : Reader) : List String → Except Refusal Arguments
  | [] => r.settle
  | argument :: rest =>
    match argument.toList with
    | ['-', '-'] => if rest.isEmpty then r.settle else .error .unknownArgument
    | '-' :: '-' :: text => do (← r.readLong text).readAll rest
    | ['-'] => do (← r.readPlain argument).readAll rest
    | '-' :: text => do (← r.readShort text).readAll rest
    | _ => do (← r.readPlain argument).readAll rest

end Reader

namespace Arguments

/-! ### The environment -/

/-- The options that environment variables can set, in the order in which they are looked up. -/
def environmentNames : List (String × AnyOption) :=
  [("PGQM_INTERVAL", .value .interval), ("PGQM_DBNAME", .value .database),
    ("PGQM_DBSTRICT", .switch .onlyDatabase), ("PGQM_VIEW", .value .view),
    ("PGQM_TAGS", .value .tags), ("PGQM_HOST", .value .host),
    ("PGQM_SAMPLES_PER_HOUR", .value .textsPerHour), ("PGQM_TLS", .switch .tls)]

/-- Whether an option has been given. -/
def isGiven (a : Arguments) : AnyOption → Bool
  | .value .settingsFile => a.settingsFile.isSome
  | .value .interval => a.interval.isSome
  | .value .database => a.database.isSome
  | .value .view => a.view.isSome
  | .value .tags => a.tags.isSome
  | .value .host => a.host.isSome
  | .value .textsPerHour => a.textsPerHour.isSome
  | .value .textCacheSize => a.textCacheSize.isSome
  | .value .rowLimit => a.rowLimit.isSome
  | .value .output => a.output.isSome
  | .switch .onlyDatabase => a.onlyDatabase.isSome
  | .switch .tls => a.tls.isSome
  | .switch .verbose => 0 < a.verbosity
  | .switch .quiet => a.quiet.isSome
  | .switch .help => false
  | .switch .version => false

/-- Sets a switch to a value: the word for true or for false. -/
def setSwitch (a : Arguments) (s : Switch) (value : String) : Except Refusal Arguments :=
  match value, s with
  | "true", .onlyDatabase => .ok { a with onlyDatabase := some true }
  | "false", .onlyDatabase => .ok { a with onlyDatabase := some false }
  | "true", .tls => .ok { a with tls := some true }
  | "false", .tls => .ok { a with tls := some false }
  | _, _ => .error .invalidValue

/-- Takes in the value of an environment variable, if it has one and the option is not given. -/
def takeVariable (environment : String → Option String) (a : Arguments)
    (entry : String × AnyOption) : Except Refusal Arguments :=
  match environment entry.1 with
  | none => .ok a
  | some value =>
    if a.isGiven entry.2 then .ok a
    else
      match entry.2 with
      | .value o => a.take value o
      | .switch s => a.setSwitch s value

/-- What the arguments and the environment say. -/
def parse (environment : String → Option String) (arguments : List String) :
    Except Refusal Arguments := do
  let given ← (⟨.empty, none⟩ : Reader).readAll arguments
  environmentNames.foldlM (takeVariable environment) given

end Arguments

end CommandLine

end QueryTelemetry
