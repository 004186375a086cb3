import QueryTelemetry.Decimal.Reading
import QueryTelemetry.Source
import QueryTelemetry.Text.Search
import QueryTelemetry.Text.Utf8

/-!
# What a server sends

A server describes the columns and parameters of a query by types and sends each cell as bytes, or
as null. `ColumnType.decode` turns the bytes into a cell; types that the collector has no use for,
and bytes that do not fit their type, become null. A `Reply` is everything that a server has to say
about a query, from its preparation to its rows.
-/

namespace QueryTelemetry

namespace Connection

/-- A type of the server, as far as it matters. -/
inductive ColumnType
  | int8
  | int4
  | int2
  | oid
  | float8
  | float4
  /-- One of the types whose values are texts. -/
  | text
  /-- The type of a literal that has none yet. Its values are texts, but not in rows. -/
  | unknown
  /-- Any other type. -/
  | other
  deriving DecidableEq, Repr

namespace ColumnType

/-- The type with a name. -/
def ofName : String → ColumnType
  | "int8" => int8
  | "int4" => int4
  | "int2" => int2
  | "oid" => oid
  | "float8" => float8
  | "float4" => float4
  | "text" | "varchar" | "name" | "bpchar" => text
  | "unknown" => unknown
  | _ => other

/-- Whether a text can be sent and received as a value of the type. -/
def holdsText : ColumnType → Bool
  | text | unknown => true
  | _ => false

end ColumnType

/-! ### Bytes -/

/-- The number that bytes stand for, highest byte first. -/
def unsignedOf (bytes : List UInt8) : Nat := bytes.foldl (fun n b => 256 * n + b.toNat) 0

/-- The number that bytes stand for in two's complement, highest byte first. -/
def signedOf (bytes : List UInt8) : Int :=
  let n := unsignedOf bytes
  if n < 2 ^ (8 * bytes.length - 1) then n else n - 2 ^ (8 * bytes.length)

/-- The low bytes of a number, highest byte first. -/
def bytesOf (count n : Nat) : List UInt8 :=
  (List.range count).reverse.map fun i => (n / 256 ^ i).toUInt8

/-- Whether a text with these bytes can be sent. A byte that is zero marks the end of a text, so it
cannot be in it. -/
def isSendable (bytes : List UInt8) : Bool := !bytes.contains 0

namespace ColumnType

/-- The cell that bytes stand for. -/
def decode (type : ColumnType) (bytes : List UInt8) : Cell :=
  match type with
  | int8 => if bytes.length = 8 then .whole (Int64.ofInt (signedOf bytes)) else .null
  | int4 => if bytes.length = 4 then .whole (Int64.ofInt (signedOf bytes)) else .null
  | int2 => if bytes.length = 2 then .whole (Int64.ofInt (signedOf bytes)) else .null
  | oid => if bytes.length = 4 then .whole (Int64.ofNat (unsignedOf bytes)) else .null
  | float8 =>
    if bytes.length = 8 then .real (Float.ofBits (unsignedOf bytes).toUInt64) else .null
  | float4 =>
    if bytes.length = 4 then .real (Float32.ofBits (unsignedOf bytes).toUInt32).toFloat else .null
  | text =>
    match Text.ofUtf8? bytes with
    | some s => .text s
    | none => .null
  | unknown => .null
  | other => .null

end ColumnType

/-! ### Replies -/

/-- An error of the server. -/
structure ServerError where
  severity : String
  /-- The five characters that classify the error. -/
  code : String
  message : String
  /-- More about the error; the message does without it. -/
  detail : Option String
  deriving DecidableEq, Repr

namespace ServerError

/-- The form in which an error is sent: fields that begin with a letter and end with the character
U+0000, and that character once more. -/
def sent (e : ServerError) : List Char :=
  let field (letter : Char) (text : String) : List Char := letter :: text.toList ++ ['\x00']
  field 'S' e.severity ++ field 'C' e.code ++ field 'M' e.message ++
    e.detail.elim [] (field 'D') ++ ['\x00']

/-- The fields in what has been sent. Nothing may follow the end. -/
def fields? : List Char → Option (List (Char × List Char))
  | [] => none
  | letter :: rest =>
    if letter = '\x00' then if rest.isEmpty then some [] else none
    else
      match _ : Text.splitFirst (· == '\x00') rest with
      | (_, none) => none
      | (text, some after) => (fields? after).map ((letter, text) :: ·)
termination_by text => text.length
decreasing_by
  have := Text.length_lt_of_splitFirst ‹Text.splitFirst _ rest = _›
  simp only [List.length_cons]
  omega

/-- Whether a field may have a text. Positions and lines are numbers of 32 bits, and the severity
that is never translated has a fixed choice of words. -/
def isFieldText (letter : Char) (text : List Char) : Bool :=
  if letter = 'P' ∨ letter = 'p' ∨ letter = 'L' then
    match Decimal.natural? text with
    | some n => n < 2 ^ 32
    | none => false
  else if letter = 'V' then
    ["DEBUG", "ERROR", "FATAL", "INFO", "LOG", "NOTICE", "PANIC", "WARNING"].any
      fun word => word.toList = text
  else true

/-- The error that fields describe. Of fields with the same letter the last one counts. A position
in a query of the server's own needs that query, unless there is another position. -/
def ofFields? (fields : List (Char × List Char)) : Option ServerError := do
  let last? (letter : Char) : Option (List Char) := fields.reverse.lookup letter
  let severity ← last? 'S'
  let code ← last? 'C'
  let message ← last? 'M'
  let lacksQuery := (last? 'P').isNone && (last? 'p').isSome && (last? 'q').isNone
  if lacksQuery || !fields.all fun (letter, text) => isFieldText letter text then none
  else
    some ⟨String.ofList severity, String.ofList code, String.ofList message,
      (last? 'D').map String.ofList⟩

/-- The error that a client reads, if it can read what was sent. -/
def received? (e : ServerError) : Option ServerError := (fields? e.sent).bind ofFields?

end ServerError

/-- Why an exchange with a server has failed. -/
inductive Failure
  /-- The connection string cannot be read. -/
  | invalidString
  /-- Something is missing from the connection string. -/
  | invalidConfiguration
  /-- No server answers. -/
  | unreachable
  /-- The connection is to be encrypted and cannot be. -/
  | noEncryption
  /-- The server does not authenticate as it has to. -/
  | notAuthentic
  /-- A text cannot be sent. -/
  | unsendable
  /-- What the server has sent cannot be read. -/
  | unreadable
  /-- The server has closed the connection. -/
  | closed
  /-- The query has another number of parameters. -/
  | parameterCount (expected given : Nat)
  /-- A parameter of the query is no text; the parameters are counted from zero. -/
  | parameterType (index : Nat)
  /-- The server reports an error. -/
  | server (e : ServerError)
  /-- Anything else, with what the client says of it. -/
  | other (message : String) (code : Option String) (isClosed : Bool)
  deriving DecidableEq, Repr

namespace Failure

/-- The message for a failure. -/
def message : Failure → String
  | invalidString => "invalid connection string"
  | invalidConfiguration => "invalid configuration"
  | unreachable => "error connecting to server"
  | noEncryption => "error performing TLS handshake"
  | notAuthentic => "authentication error"
  | unsendable => "error encoding message to server"
  | unreadable => "error parsing response from server"
  | closed => "connection closed"
  | parameterCount expected given =>
    "expected " ++ toString expected ++ " parameters but got " ++ toString given
  | parameterType index => "error serializing parameter " ++ toString index
  | server e => e.severity ++ ": " ++ e.message
  | other message _ _ => message

/-- What comes of an error that the server reports. -/
def ofReport (e : ServerError) : Failure :=
  match e.received? with
  | some e => .server e
  | none => .unreadable

/-- The code that the server gives for the failure, if it is an error of the server. -/
def code? : Failure → Option String
  | server e => some e.code
  | other _ code _ => code
  | _ => none

/-- Whether the failure says that the connection is gone. -/
def saysClosed : Failure → Bool
  | closed => true
  | other _ _ isClosed => isClosed
  | _ => false

end Failure

/-- A column in a reply. -/
structure Column where
  name : String
  type : ColumnType

/-- What a server has to say about a query. -/
inductive Reply
  /-- The query runs: the types of its parameters, its columns, and the bytes of its rows. -/
  | table (parameters : List ColumnType) (columns : List Column)
      (rows : List (List (Option (List UInt8))))
  /-- The query is refused when it is prepared. -/
  | refused (e : ServerError)
  /-- The query fails when it is run, after its parameters have been checked. -/
  | failed (parameters : List ColumnType) (e : ServerError)
  /-- The server closes the connection. -/
  | hangUp

/-- A reply with its rows. -/
structure Answer where
  columns : List Column
  rows : List (List (Option (List UInt8)))

/-- Checks the number of parameters and their types; all parameters are texts. -/
def checkParameters (types : List ColumnType) (given : Nat) : Except Failure Unit :=
  if types.length ≠ given then .error (.parameterCount types.length given)
  else
    match types.findIdx? fun type => !type.holdsText with
    | some index => .error (.parameterType index)
    | none => .ok ()

/-- What comes of a query with a number of text parameters. -/
def Reply.answer (given : Nat) : Reply → Except Failure Answer
  | table parameters columns rows => do
    checkParameters parameters given
    return ⟨columns, rows⟩
  | refused e => .error (.ofReport e)
  | failed parameters e => do
    checkParameters parameters given
    .error (.ofReport e)
  | hangUp => .error .closed

namespace Answer

/-- The cell of a column. -/
private def cell (column : Column) : Option (List UInt8) → Cell
  | some bytes => column.type.decode bytes
  | none => .null

/-- The result of a query. Of cells under the same name the last one counts. -/
def toResult (a : Answer) : QueryResult where
  columns := a.columns.map Column.name
  rows := a.rows.map fun row =>
    .ofList ((a.columns.zip row).map fun (column, bytes) => (column.name, cell column bytes))

/-- The text in the first column of the only row. -/
def singleText? (a : Answer) : Option String :=
  match a.columns, a.rows with
  | column :: _, [some bytes :: _] => if column.type.holdsText then Text.ofUtf8? bytes else none
  | _, _ => none

end Answer

end Connection

end QueryTelemetry
