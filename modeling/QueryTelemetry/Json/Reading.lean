import QueryTelemetry.Json.Document
import QueryTelemetry.Json.Value
import QueryTelemetry.Decimal.Reading

/-!
# Values out of a JSON text

What a part of a JSON text means, for those who want to know: a text with its escapes resolved, a
number in 64 bits or as a double, a list, a record with known fields. A part nobody asks for may be
out of range or hold half a character; it only has to be well formed.

Numbers with a point or an exponent are read as the product or quotient of two doubles: the digits
that fit into 64 bits, and a power of ten. For numbers with few digits that is the nearest double;
in general it may be off by one place.
-/

namespace QueryTelemetry

namespace Json

/-! ### Numbers -/

/-- The power of ten nearest to `10 ^ n`. -/
def powerOfTen (n : Nat) : Float := Decimal.nearest (10 ^ n) 1

/-- The largest power of ten that is a double. -/
def largestPower : Nat := 308

/-- Appends digits to a number as long as it fits into 64 bits; the digits left over. -/
def appendDigits (n : Nat) : List Char → Nat × List Char
  | [] => (n, [])
  | c :: rest =>
    let more := Decimal.digitsValue n [c]
    if more < 2 ^ 64 then appendDigits more rest else (n, c :: rest)

/-- Divides by a power of ten, in several steps if it is no double itself. -/
def divideByPower (x : Float) (n : Nat) : Float :=
  if n ≤ largestPower then x / powerOfTen n
  else if x == 0.0 then x
  else divideByPower (x / powerOfTen largestPower) (n - largestPower)
termination_by n
decreasing_by simp only [largestPower] at *; omega

/-- The product of a number and a power of ten, unless it is too large. -/
def scale? (significand : Nat) (exponent : Int) : Option Float :=
  let x := Decimal.nearest significand 1
  if exponent < 0 then some (divideByPower x (-exponent).toNat)
  else if significand = 0 then some x
  else if exponent ≤ largestPower then
    let product := x * powerOfTen exponent.toNat
    if product.isInf then none else some product
  else none

namespace NumberText

/-- The magnitude of a number that is read as a double, unless it is too large. Digits before the
point that do not fit into 64 bits count as zeros, those after it are left out. An exponent beyond
`2 ^ 31` makes a number too large or zero. -/
def magnitude? (n : NumberText) : Option Float :=
  let (whole, leftOver) := appendDigits 0 n.whole
  let fraction := n.fraction.getD []
  let (significand, beyond) := appendDigits whole fraction
  let place := (leftOver.length : Int) - (fraction.length - beyond.length)
  match n.exponent with
  | none => scale? significand place
  | some (negative, digits) =>
    let exponent := Decimal.digitsValue 0 digits
    if exponent < 2 ^ 31 then
      scale? significand (if negative then place - exponent else place + exponent)
    else if significand = 0 ∨ negative then some 0.0
    else none

/-- The value of a number. Whole numbers between `-2 ^ 63` and `2 ^ 64` are kept as they are, all
others become doubles. Minus zero is a double too. -/
def value? (n : NumberText) : Option Value :=
  let whole := Decimal.digitsValue 0 n.whole
  let isWhole := n.fraction.isNone && n.exponent.isNone
  if isWhole && !n.negative && whole < 2 ^ 64 then some (.whole whole)
  else if isWhole && n.negative && 0 < whole && whole ≤ 2 ^ 63 then some (.whole (-whole))
  else n.magnitude?.map fun x => .real (if n.negative then -x else x)

end NumberText

/-! ### Texts -/

/-- The characters that escapes and plain characters stand for. Two escapes may stand for one
character; half a character is an error. -/
def decodeUnits? : List TextUnit → Option (List Char)
  | [] => some []
  | .plain c :: rest => (decodeUnits? rest).map (c :: ·)
  | .escaped bits :: rest =>
    if bits < 0xD800 ∨ 0xE000 ≤ bits then (decodeUnits? rest).map (Char.ofNat bits :: ·)
    else
      match rest with
      | .escaped low :: after =>
        if bits < 0xDC00 ∧ 0xDC00 ≤ low ∧ low < 0xE000 then
          (decodeUnits? after).map
            (Char.ofNat (0x10000 + (bits - 0xD800) * 0x400 + (low - 0xDC00)) :: ·)
        else none
      | _ => none

/-- The text that escapes and plain characters stand for. -/
def decodeText? (units : List TextUnit) : Option String :=
  (decodeUnits? units).map String.ofList

/-! ### Values -/

/-- Sets a member of a record whose members are in the order of their names. -/
def setMember (name : String) (value : Value) : List (String × Value) → List (String × Value)
  | [] => [(name, value)]
  | (other, v) :: rest =>
    if name = other then (name, value) :: rest
    else if name < other then (name, value) :: (other, v) :: rest
    else (other, v) :: setMember name value rest

namespace Node

/-- The value of a part, which may hold at most `levels` lists and records inside one another. The
members of a record are put in order, and the last one of a name counts. -/
def value? : (levels : Nat) → Node → Option Value
  | _, .null => some .null
  | _, .bool b => some (.bool b)
  | _, .number n => n.value?
  | _, .text units => (decodeText? units).map .text
  | 0, .list _ => none
  | 0, .record _ => none
  | levels + 1, .list items => (items.mapM (value? levels)).map .list
  | levels + 1, .record members => do
    let members ← members.mapM fun (name, node) => do
      let name ← decodeText? name
      let value ← value? levels node
      some (name, value)
    some (.record (members.foldl (fun done (name, value) => setMember name value done) []))

/-- One of the two truth values. -/
def bool? : Node → Option Bool
  | .bool b => some b
  | _ => none

/-- A text. -/
def text? : Node → Option String
  | .text units => decodeText? units
  | _ => none

/-- A whole number below the bound; nothing with a point, an exponent or a minus. -/
def natural? (bound : Nat) : Node → Option Nat
  | .number n =>
    match n.value? with
    | some (.whole (.ofNat k)) => if k < bound then some k else none
    | _ => none
  | _ => none

/-- A number as a double. -/
def float? : Node → Option Float
  | .number n =>
    match n.value? with
    | some (.whole k) =>
      let magnitude := Decimal.nearest k.natAbs 1
      some (if k < 0 then -magnitude else magnitude)
    | some (.real x) => some x
    | _ => none
  | _ => none

/-- A list of texts. -/
def texts? : Node → Option (List String)
  | .list items => items.mapM text?
  | _ => none

/-! ### Records with known fields -/

/-- The members of a record whose name is `field`. -/
private def membersNamed (field : String) (members : List (String × Node)) : List Node :=
  (members.filter fun (name, _) => name = field).map (·.2)

/-- What a part says about each of the fields: a record gives each field at most once, next to
members that are none of the fields; a list gives a first few of the fields in order. -/
def fields? (fields : List String) : Node → Option (List (Option Node))
  | .list items =>
    if items.length ≤ fields.length then
      some (items.map some ++ List.replicate (fields.length - items.length) none)
    else none
  | .record members => do
    let members ← members.mapM fun (name, node) => (decodeText? name).map (·, node)
    fields.mapM fun field =>
      match membersNamed field members with
      | [] => some none
      | [node] => some (some node)
      | _ => none
  | _ => none

/-- Reads a field, or takes its default if nothing is said about it. -/
def orDefault (read : Node → Option α) (default : α) : Option Node → Option α
  | none => some default
  | some node => read node

end Node

end Json

end QueryTelemetry
