import QueryTelemetry.Decimal.Reading
import QueryTelemetry.Text.Blank
import QueryTelemetry.Text.Hexadecimal
import QueryTelemetry.Text.Search
import QueryTelemetry.Text.Utf8

/-!
# Hosts

A server is found in a directory of the local machine or in the network, there under a name or a
numeric address. An address is four decimal numbers with points between them, or groups of
hexadecimal digits with colons between them. The last two groups may be written as four decimal
numbers, and two colons in a row stand for groups that are zero.

`isAddress` says which texts are addresses, `leadsTo` which paths lead to a directory.
-/

namespace QueryTelemetry

namespace Connection

/-- Where a server may be found. -/
inductive Host
  /-- In a directory of the local machine. A path is bytes, which need not be a text. -/
  | directory (path : List UInt8)
  /-- In the network, under a name or a numeric address. -/
  | network (name : String)
  deriving DecidableEq, Repr

namespace Host

/-- The host that bytes name. A path begins with a slash; a name is a text. -/
def ofBytes? (bytes : List UInt8) : Option Host :=
  if bytes.head? = some '/'.toUInt8 then some (.directory bytes)
  else (Text.ofUtf8? bytes).map .network

/-- The host that a text names. -/
def ofText (text : String) : Host :=
  if text.toList.head? = some '/' then .directory (Text.utf8 text) else .network text

end Host

/-! ### Numeric addresses -/

/-- Whether a text is a decimal number up to 255 without idle zeros. -/
def isOctet (text : List Char) : Bool :=
  match Decimal.digits? text with
  | some n => n ≤ 255 && (text.length == 1 || text.head? != some '0')
  | none => false

/-- Whether a text is four decimal numbers with points between them. -/
def isDotted (text : List Char) : Bool :=
  let parts := Text.splitAt '.' text
  parts.length == 4 && parts.all isOctet

/-- Whether a text is a group of an address: one to four hexadecimal digits. -/
def isGroup (text : List Char) : Bool :=
  0 < text.length && text.length ≤ 4 && text.all fun c => (Text.hexDigit? c).isSome

/-- For how many groups the parts between colons stand. Only the last part may be four decimal
numbers, which stand for two groups. -/
def groupCount? : List (List Char) → Option Nat
  | [] => some 0
  | [part] => if isGroup part then some 1 else if isDotted part then some 2 else none
  | part :: rest => if isGroup part then (groupCount? rest).map (· + 1) else none

/-- For how many groups a text without two colons in a row stands. -/
def groups? (text : List Char) : Option Nat :=
  if text.isEmpty then some 0 else groupCount? (Text.splitAt ':' text)

/-- Whether a text is eight groups, or fewer with two colons where groups are missing. Decimal
numbers stand only at the end of an address. -/
def isGrouped (text : List Char) : Bool :=
  match Text.afterFirst? [':', ':'] text with
  | none => groups? text == some 8
  | some back =>
    let front := Text.beforeFirst [':', ':'] text
    match groups? front, groups? back with
    | some before, some after => !front.contains '.' && before + after ≤ 7
    | _, _ => false

/-- Whether a text is the numeric address of a host. -/
def isAddress (text : String) : Bool := isDotted text.toList || isGrouped text.toList

/-! ### Paths -/

/-- Follows the parts of a path from a place on the way from the root to a directory, which is the
number of steps taken on that way. One point stays, two points go back, and from the root they stay
too. A step off the way leads nowhere. -/
def followPath (way : List (List UInt8)) (place : Nat) : List (List UInt8) → Option Nat
  | [] => some place
  | part :: rest =>
    let point := '.'.toUInt8
    if part = [] ∨ part = [point] then followPath way place rest
    else if part = [point, point] then followPath way (place - 1) rest
    else if way[place]? = some part then followPath way (place + 1) rest
    else none

/-- Whether a path leads to a directory, if the directories on the way to it are the only ones. -/
def leadsTo (directory path : List UInt8) : Bool :=
  let way := (Text.splitAt '/'.toUInt8 directory).filter (· ≠ [])
  followPath way 0 (Text.splitAt '/'.toUInt8 path) == some way.length

/-- The path of the socket that serves a port, in a directory. -/
def socketPath (directory : List UInt8) (port : Nat) : List UInt8 :=
  let slash := '/'.toUInt8
  (if directory.getLast? = some slash then directory else directory ++ [slash]) ++
    Text.utf8 (".s.PGSQL." ++ toString port)

/-- Whether the address of a local socket has room for a path: it holds 107 bytes. -/
def fitsSocket (path : List UInt8) : Bool := path.length < 108

end Connection

end QueryTelemetry
