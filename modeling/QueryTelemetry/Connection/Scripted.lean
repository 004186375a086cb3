import QueryTelemetry.Connection.Link

/-!
# Servers that follow a script

A `ScriptedServer` listens in one place and treats each client as the script for it says. It records
as whom each of them came. Queries apart, a client may ask it nothing.
-/

namespace QueryTelemetry

namespace Connection

/-- How a connection is treated. -/
structure SessionScript where
  /-- The error with which the connection is refused. -/
  refusal : Option ServerError
  asksPassword : Bool
  /-- The reply to the query for the version. -/
  version : Reply

namespace SessionScript

/-- Answers a client that has told who it is: the password that it gave when it was asked, and
whether it is let in. -/
def treat (script : SessionScript) (logIn : LogIn) :
    Option (List UInt8) × Except Failure Unit :=
  let verdict : Except Failure Unit :=
    match script.refusal with
    | some e => .error (.ofReport e)
    | none => .ok ()
  if script.asksPassword then
    match logIn.givePassword with
    | .error failure => (none, .error failure)
    | .ok password => (some password, verdict)
  else (none, verdict >>= fun _ => logIn.acceptAdmission)

end SessionScript

/-- As whom a client came. The password is there if it was asked for and given. -/
structure Startup where
  user : Option String
  database : Option String
  password : Option String
  deriving DecidableEq

/-- A server that follows a script. -/
structure ScriptedServer where
  /-- The directory that it listens in; none if it is not there. -/
  directory : Option String
  /-- The scripts for the clients to come. The last one is used again and again. -/
  scripts : List SessionScript
  /-- The connections so far, with the replies to the query for the version; none if the server has
  closed the connection. -/
  sessions : List (Option Reply)
  /-- The reply to any other query. -/
  ready : Reply
  /-- As whom the clients so far came. -/
  startups : List Startup

namespace ScriptedServer

/-- The port that the server listens at. -/
def port : Nat := 5432

/-- Treats a client that has reached the server as a script says. The script is used up when the
client tells who it is, so not by one that gives up before. A client that wants a certain access has
a question after the log-in, at which the server hangs up. -/
def follow (script : SessionScript) (logIn : LogIn) (s : ScriptedServer) :
    Except Failure Session × ScriptedServer :=
  match logIn.introduce with
  | .error failure => (.error failure, s)
  | .ok () =>
    let (password, admission) := script.treat logIn
    let startup : Startup := ⟨logIn.user, logIn.database, password.map Text.decodeLossy⟩
    let s := { s with
      scripts := if s.scripts.length ≤ 1 then s.scripts else s.scripts.drop 1
      startups := s.startups ++ [startup] }
    match admission with
    | .error failure => (.error failure, s)
    | .ok () =>
      if logIn.access = .any then
        (.ok s.sessions.length, { s with sessions := s.sessions ++ [some script.version] })
      else (.error .closed, s)

/-- Whether the server listens at a host and port. -/
def isAt (s : ScriptedServer) (host : Host) (port : Nat) : Bool :=
  match s.directory, host with
  | some directory, .directory path =>
    leadsTo (Text.utf8 directory) path && port == ScriptedServer.port &&
      fitsSocket (socketPath path port)
  | _, _ => false

/-- Lets a client in at the place where the server listens. -/
def connect (host : Host) (port : Nat) (logIn : LogIn) (s : ScriptedServer) :
    Except Failure Session × ScriptedServer :=
  match s.scripts with
  | script :: _ => if s.isAt host port then s.follow script logIn else (.error .unreachable, s)
  | [] => (.error .unreachable, s)

/-- Replies to a query on a connection that has not been closed. -/
def ask (session : Session) (sql : String) (parameters : List String) (s : ScriptedServer) :
    Except Failure Answer × ScriptedServer :=
  match s.sessions[session]? with
  | some (some version) =>
    let reply := if sql = Linked.versionQuery then version else s.ready
    let s :=
      match reply with
      | .hangUp => { s with sessions := s.sessions.set session none }
      | _ => s
    (reply.answer parameters.length, s)
  | _ => (.error .closed, s)

instance : Server ScriptedServer where
  connect := connect
  ask := ask

end ScriptedServer

end Connection

end QueryTelemetry
