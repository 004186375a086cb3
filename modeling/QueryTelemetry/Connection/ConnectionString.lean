import QueryTelemetry.Connection.Uri
import QueryTelemetry.Connection.Words

/-!
# Connection strings

A connection string is a list of words or a URI; `Target.parse?` reads both. Connection strings are
made from the environment, and changed to name another database, by `ofEnvironment` and
`withDatabase`.
-/

namespace QueryTelemetry

namespace Connection

/-- What a connection string says. -/
def Target.parse? (connectionString : String) : Option Target :=
  let text := connectionString.toList
  match Uri.afterScheme? text with
  | some rest => Target.ofUri? rest
  | none => (words? text).bind Target.ofWords?

/-! ### Making connection strings -/

/-- Why the environment gives no connection string. -/
inductive EnvironmentError
  /-- None of the variables is set. -/
  | notSet (names : String)
  deriving DecidableEq

/-- The message for an error. -/
def EnvironmentError.message : EnvironmentError → String
  | notSet names => names ++ " not set"

/-- The connection string that the environment gives, and its database. The user has to be given;
everything else has a default. -/
def ofEnvironment (environment : String → Option String) :
    Except EnvironmentError (String × String) :=
  match environment "PGUSER" <|> environment "USER" with
  | none => .error (.notSet "PGUSER or USER")
  | some user =>
    let host := (environment "PGHOST").getD "localhost"
    let port := (environment "PGPORT").getD "5432"
    let password := (environment "PGPASSWORD").getD ""
    let database := (environment "PGDATABASE").getD user
    let credentials :=
      if password.isEmpty then " user=" ++ user else " user=" ++ user ++ " password=" ++ password
    .ok ("host=" ++ host ++ " port=" ++ port ++ credentials ++ " dbname=" ++ database, database)

/-- The start of a word that names the database. -/
def databaseKey : String := "dbname="

/-- The connection string with another database. The parts between blanks that name a database are
replaced; if there is none, the database is named at the end. -/
def withDatabase (connectionString database : String) : String :=
  let parts := (Text.wordsBy Text.isBlank connectionString.toList)
  let names (part : List Char) : Bool := databaseKey.toList.isPrefixOf part
  if parts.any names then
    " ".intercalate
      (parts.map fun part => if names part then databaseKey ++ database else String.ofList part)
  else connectionString ++ " " ++ databaseKey ++ database

end Connection

end QueryTelemetry
