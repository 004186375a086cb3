import QueryTelemetry.Connection.ConnectionString
import QueryTelemetry.Connection.Wire
import QueryTelemetry.Text.Search

/-!
# Connections to a server

A `Link` is a connection that is opened when it is needed and opened again after it has failed. It
knows the version of the server as long as it is connected. `Linked` is a link together with what
is at its other end, and that is a source of statistics.

At the other end can be anything that opens a connection for a link and answers queries on it
(`Transport`): a server that listens at hosts and ports, for one (`Server`).
-/

namespace QueryTelemetry

namespace Connection

/-- The number of a connection. -/
abbrev Session := Nat

/-- A server, with the world around it. -/
class Server (σ : Type) where
  /-- Tries to connect to a host at a port and to log in. -/
  connect : Host → (port : Nat) → LogIn → σ → Except Failure Session × σ
  /-- Sends a query on a connection. -/
  ask : Session → (sql : String) → (parameters : List String) → σ → Except Failure Answer × σ

/-! ### Kinds of failures -/

/-- The kind of a failure with the given code and message. A failure without a code has never
reached the server. -/
def kindOf (code : Option String) (message : String) : QueryErrorKind :=
  match code with
  | none => .connection
  | some code =>
    let contains (text : String) : Bool := Text.occursIn text.toList message.toList
    let startsWith (start : String) : Bool := start.toList.isPrefixOf code.toList
    if code = "55000" ∧ contains "pg_stat_statements must be loaded" then .extensionNotLoaded
    else if code = "42P01" ∧ contains "pg_stat_statements" then .extensionNotCreated
    else if code = "57014" then .canceled
    else if startsWith "42" then .programming
    else if startsWith "08" || startsWith "57P" then .connection
    else .database

/-- The error of a query that has failed. -/
def queryError (failure : Failure) : QueryError :=
  ⟨kindOf failure.code? failure.message, failure.message⟩

/-! ### Links -/

/-- A connection that is opened when it is needed. -/
structure Link where
  client : Client
  connectionString : String
  database : String
  session : Option Session
  version : Option ServerVersion
  /-- The message of the last failure, until a connection is opened. -/
  lastError : Option String
  deriving DecidableEq

namespace Link

/-- A link that has not been used yet. -/
def create (client : Client) (connectionString database : String) : Link :=
  ⟨client, connectionString, database, none, none, none⟩

/-- A link of the same client for the same server and user, and another database. -/
def forDatabase (link : Link) (database : String) : Link :=
  create link.client (withDatabase link.connectionString database) database

end Link

/-- What a link is connected through. -/
class Transport (σ : Type) where
  /-- Tries to open a connection for a link. -/
  openSession : Link → σ → Except Failure Session × σ
  /-- Sends a query on a connection. -/
  ask : Session → (sql : String) → (parameters : List String) → σ → Except Failure Answer × σ

/-- A link with the server at its other end. -/
structure Linked (σ : Type) where
  link : Link
  server : σ

namespace Linked

variable {σ : Type}

section

variable [Server σ]

/-- Tries one host after the other; if none of them accepts the connection, the last failure
counts. -/
def tryEndpoints (logIn : LogIn) (failure : Failure) :
    List (Host × Nat) → σ → Except Failure Session × σ
  | [], server => (.error failure, server)
  | (host, port) :: rest, server =>
    match Server.connect host port logIn server with
    | (.ok session, server) => (.ok session, server)
    | (.error failure, server) => tryEndpoints logIn failure rest server

/-- Opens a connection as the connection string says. -/
def openSession (link : Link) (server : σ) : Except Failure Session × σ :=
  match Target.parse? link.connectionString with
  | none => (.error .invalidString, server)
  | some target =>
    if target.isComplete then
      tryEndpoints (link.client.complete target.logIn) .invalidConfiguration target.endpoints
        server
    else (.error .invalidConfiguration, server)

/-- Sends a query. One that cannot be sent does not get to the server. -/
def ask (session : Session) (sql : String) (parameters : List String) (server : σ) :
    Except Failure Answer × σ :=
  if isSendable (Text.utf8 sql) then Server.ask session sql parameters server
  else (.error .unsendable, server)

instance : Transport σ := ⟨openSession, ask⟩

end

variable [Transport σ]

/-- The query for the version of the server. -/
def versionQuery : String := "SHOW server_version_num"

/-- The version in an answer: the text in it has to be a whole number of 32 bits. -/
def versionOf? (answer : Answer) : Option ServerVersion := do
  let text ← answer.singleText?
  let number ← Decimal.integer? text.toList
  if -2 ^ 31 ≤ number ∧ number < 2 ^ 31 then some (.ofNumber number) else none

/-- Asks for the version of the server. -/
def askVersion (session : Session) (server : σ) : Option ServerVersion × σ :=
  match Transport.ask session versionQuery [] server with
  | (.ok answer, server) => (versionOf? answer, server)
  | (.error _, server) => (none, server)

/-- Opens a connection unless there is one, and finds out the version of the server. All failures
to connect are of the same kind. -/
def connect (l : Linked σ) : Except QueryError Unit × Linked σ :=
  match l.link.session with
  | some _ => (.ok (), l)
  | none =>
    match Transport.openSession l.link l.server with
    | (.error failure, server) =>
      (.error ⟨.connection, failure.message⟩,
        ⟨{ l.link with version := none, lastError := some failure.message }, server⟩)
    | (.ok session, server) =>
      let (version, server) := askVersion session server
      (.ok (), ⟨{ l.link with session := some session, version, lastError := none }, server⟩)

/-- Whether a failed query makes the connection useless. -/
def breaksConnection (failure : Failure) : Bool :=
  (queryError failure).kind == .connection || failure.saysClosed

/-- The error of a query for which there is no connection. -/
def notConnected : QueryError := ⟨.connection, "not connected"⟩

/-- Runs a query, on a new connection if there is none. A failure that makes the connection useless
gives it up. -/
def query (sql : String) (parameters : List String) (l : Linked σ) :
    Except QueryError QueryResult × Linked σ :=
  match l.connect with
  | (.error e, l) => (.error e, l)
  | (.ok (), l) =>
    match l.link.session with
    | none => (.error notConnected, l)
    | some session =>
      match Transport.ask session sql parameters l.server with
      | (.ok answer, server) => (.ok answer.toResult, { l with server })
      | (.error failure, server) =>
        let e := queryError failure
        let link := { l.link with lastError := some e.message }
        let link :=
          if breaksConnection failure then { link with session := none, version := none } else link
        (.error e, ⟨link, server⟩)

/-- The version of the server, on a new connection if there is none. -/
def serverVersion (l : Linked σ) : Option ServerVersion × Linked σ :=
  match l.connect with
  | (.error _, l) => (none, l)
  | (.ok _, l) => (l.link.version, l)

instance : Source (Linked σ) where
  query := query
  serverVersion := serverVersion

end Linked

end Connection

end QueryTelemetry
