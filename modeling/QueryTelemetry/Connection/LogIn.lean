import QueryTelemetry.Connection.Wire

/-!
# Logging in

A `LogIn` is what a client tells a server, or insists on, before it is let in; `Client.complete`
adds what the client brings along. The servers here do not encrypt and do not bind a log-in to the
encrypted channel, so a client that insists on either gives up: on encryption in `introduce`, before
it has said who it is, and on binding when the server asks for the password or is content without
one (`givePassword`, `acceptAdmission`).
-/

namespace QueryTelemetry

namespace Connection

/-- How much a client wants something. -/
inductive Demand
  | never
  | ifPossible
  | always
  deriving DecidableEq, Repr

/-- The demand with a name. -/
def Demand.ofName? : String → Option Demand
  | "disable" => some never
  | "prefer" => some ifPossible
  | "require" => some always
  | _ => none

/-- How encryption begins. -/
inductive Negotiation
  /-- The server is asked whether it encrypts. -/
  | asked
  /-- The client encrypts without a question. -/
  | direct
  deriving DecidableEq, Repr

/-- The negotiation with a name. -/
def Negotiation.ofName? : String → Option Negotiation
  | "postgres" => some asked
  | "direct" => some direct
  | _ => none

/-- What a client wants a server to allow. -/
inductive Access
  | any
  | readWrite
  | readOnly
  deriving DecidableEq, Repr

/-- The access with a name. -/
def Access.ofName? : String → Option Access
  | "any" => some any
  | "read-write" => some readWrite
  | "read-only" => some readOnly
  | _ => none

/-- As whom and how to log in. -/
structure LogIn where
  user : Option String
  /-- The bytes of the password, which need not be a text. -/
  password : Option (List UInt8)
  database : Option String
  /-- Options for the server's process. -/
  options : Option String
  applicationName : Option String
  encryption : Demand
  negotiation : Negotiation
  /-- Whether the log-in is bound to the encrypted channel. -/
  channelBinding : Demand
  /-- What the server has to allow. If it matters, the client asks the server after the log-in. -/
  access : Access
  deriving DecidableEq, Repr

namespace LogIn

/-- Nothing is told, and nothing is insisted on. -/
def empty : LogIn := ⟨none, none, none, none, none, .ifPossible, .asked, .ifPossible, .any⟩

/-- The log-in of a client that cannot encrypt: it does not try what it only prefers. -/
def withoutEncryption (l : LogIn) : LogIn :=
  match l.encryption with
  | .ifPossible => { l with encryption := .never }
  | _ => l

/-- Whether a client goes on with a server that does not encrypt. One that has not asked whether it
does cannot go on after a refusal. -/
def settlesForPlain (l : LogIn) : Bool :=
  match l.encryption, l.negotiation with
  | .never, _ => true
  | .ifPossible, .asked => true
  | .ifPossible, .direct => false
  | .always, _ => false

/-- What a client tells about itself, all in one message. -/
def introduction (l : LogIn) : List String :=
  [l.user, l.database, l.options, l.applicationName].filterMap id

/-- Whether a client gets so far as to tell who it is. -/
def introduce (l : LogIn) : Except Failure Unit :=
  if !l.settlesForPlain then .error .noEncryption
  else if l.introduction.all fun text => isSendable (Text.utf8 text) then .ok ()
  else .error .unsendable

/-- What a client answers when it is asked for the password. -/
def givePassword (l : LogIn) : Except Failure (List UInt8) :=
  if l.channelBinding = .always then .error .notAuthentic
  else
    match l.password with
    | none => .error .invalidConfiguration
    | some password => if isSendable password then .ok password else .error .unsendable

/-- Whether a client is content to be let in without a question. -/
def acceptAdmission (l : LogIn) : Except Failure Unit :=
  if l.channelBinding = .always then .error .notAuthentic else .ok ()

end LogIn

/-- What a client brings along, whatever it connects to. -/
structure Client where
  /-- The user who runs the client. -/
  user : String
  /-- Whether the client can encrypt. -/
  canEncrypt : Bool
  deriving DecidableEq, Repr

/-- How a client logs in: as the user who runs it, if no other is named. -/
def Client.complete (c : Client) (l : LogIn) : LogIn :=
  let l := { l with user := some (l.user.getD c.user) }
  if c.canEncrypt then l else l.withoutEncryption

end Connection

end QueryTelemetry
