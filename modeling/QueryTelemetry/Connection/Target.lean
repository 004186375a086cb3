import QueryTelemetry.Connection.Host
import QueryTelemetry.Connection.LogIn

/-!
# Where and as whom to connect

A `Target` collects what a connection string says, one parameter after the other. A parameter is
refused if it is not known or its value is not possible.
-/

namespace QueryTelemetry

namespace Connection

/-- What a connection string says about the server and the log-in. -/
structure Target where
  hosts : List Host
  /-- Numeric addresses to be used in place of the names of the hosts. -/
  addresses : List String
  ports : List Nat
  logIn : LogIn
  deriving DecidableEq

namespace Target

/-- Nothing is said. -/
def empty : Target := ⟨[], [], [], .empty⟩

/-- The least and the greatest value of a parameter that is a whole number. -/
def bounds? : String → Option (Int × Int)
  | "connect_timeout" | "tcp_user_timeout" | "keepalives_idle" | "keepalives_interval" =>
    some (-2 ^ 63, 2 ^ 63 - 1)
  | "keepalives" => some (0, 2 ^ 64 - 1)
  | "keepalives_retries" => some (0, 2 ^ 32 - 1)
  | _ => none

/-- Reads the value of a parameter that is a whole number. Only one that may be negative can have a
minus sign. -/
def number? (least : Int) (value : List Char) : Option Int :=
  if least < 0 then Decimal.integer? value else (Decimal.natural? value).map Int.ofNat

/-- Whether a parameter that says nothing about server and log-in is known and has a value that is
possible. -/
def isPossible (key value : String) : Bool :=
  if key = "load_balance_hosts" then value = "disable" || value = "random"
  else
    match bounds? key with
    | some (least, greatest) =>
      match number? least value.toList with
      | some n => least ≤ n && n ≤ greatest
      | none => false
    | none => false

/-- The number of a port; an empty text stands for the usual one. -/
def port? (text : List Char) : Option Nat :=
  if text.isEmpty then some 5432
  else (Decimal.natural? text).bind fun n => if n < 2 ^ 16 then some n else none

/-- The parts of a list with commas. -/
private def listed (value : String) : List String :=
  (Text.splitAt ',' value.toList).map String.ofList

/-- Takes in a parameter. Hosts, addresses and ports are added to those before; anything else
replaces what has been said before. -/
def add? (t : Target) (key value : String) : Option Target :=
  match key with
  | "host" => some { t with hosts := t.hosts ++ (listed value).map Host.ofText }
  | "hostaddr" =>
    let addresses := listed value
    if addresses.all isAddress then some { t with addresses := t.addresses ++ addresses }
    else none
  | "port" =>
    ((Text.splitAt ',' value.toList).mapM port?).map fun ports =>
      { t with ports := t.ports ++ ports }
  | "user" => some { t with logIn.user := some value }
  | "password" => some { t with logIn.password := some (Text.utf8 value) }
  | "dbname" => some { t with logIn.database := some value }
  | "options" => some { t with logIn.options := some value }
  | "application_name" => some { t with logIn.applicationName := some value }
  | "sslmode" => (Demand.ofName? value).map fun demand => { t with logIn.encryption := demand }
  | "sslnegotiation" =>
    (Negotiation.ofName? value).map fun way => { t with logIn.negotiation := way }
  | "channel_binding" =>
    (Demand.ofName? value).map fun demand => { t with logIn.channelBinding := demand }
  | "target_session_attrs" =>
    (Access.ofName? value).map fun access => { t with logIn.access := access }
  | key => if isPossible key value then some t else none

/-- What a list of words says. -/
def ofWords? (words : List (String × String)) : Option Target :=
  words.foldlM (fun t (key, value) => t.add? key value) empty

/-- The number of hosts to try. -/
def hostCount (t : Target) : Nat := max t.hosts.length t.addresses.length

/-- Whether there is a host and each host has a port, either its own or a common one. -/
def isComplete (t : Target) : Bool :=
  t.hostCount != 0 &&
    (t.hosts.isEmpty || t.addresses.isEmpty || t.hosts.length == t.addresses.length) &&
    (t.ports.length ≤ 1 || t.ports.length == t.hostCount)

/-- The hosts to try with their ports, in order. -/
def endpoints (t : Target) : List (Host × Nat) :=
  let hosts := if t.addresses.isEmpty then t.hosts else t.addresses.map Host.network
  hosts.mapIdx fun i host => (host, (t.ports[i]?).getD (t.ports.head?.getD 5432))

end Target

end Connection

end QueryTelemetry
