import QueryTelemetry.Decimal.Layout

/-!
# JSON values and their text

A JSON value, with whole numbers and floating point numbers kept apart, and the compact text of a
value: no blanks, members in the order in which the record holds them, text escaped only where
JSON demands it.
-/

namespace QueryTelemetry

namespace Json

/-- A JSON value. A record is a list of members, so their order is part of the value. -/
inductive Value
  | null
  | bool (b : Bool)
  | whole (n : Int)
  | real (x : Float)
  | text (s : String)
  | list (items : List Value)
  | record (members : List (String × Value))

namespace Value

/-- A text or `null`. -/
def ofText? : Option String → Value
  | some s => text s
  | none => null

/-- A list of texts. -/
def ofTexts (texts : List String) : Value := list (texts.map text)

/-- A list of texts or `null`. -/
def ofTexts? : Option (List String) → Value
  | some texts => ofTexts texts
  | none => null

end Value

/-! ### Text in quotes -/

/-- A character inside quotes. Quotes, backslashes and control characters are escaped, the usual
ones of the latter by a letter. -/
def escape (c : Char) : List Char :=
  if c = '"' then ['\\', '"']
  else if c = '\\' then ['\\', '\\']
  else if c = '\x08' then ['\\', 'b']
  else if c = '\x0c' then ['\\', 'f']
  else if c = '\n' then ['\\', 'n']
  else if c = '\r' then ['\\', 'r']
  else if c = '\t' then ['\\', 't']
  else if c.toNat < 0x20 then
    '\\' :: 'u' :: '0' :: '0' :: [Nat.digitChar (c.toNat / 16), Nat.digitChar (c.toNat % 16)]
  else [c]

/-- A text in quotes. -/
def quote (s : String) : List Char :=
  '"' :: (s.toList.flatMap escape ++ ['"'])

/-! ### Compact text -/

/-- A whole number in decimal notation. -/
def writeWhole (n : Int) : List Char :=
  if n < 0 then '-' :: Nat.toDigits 10 n.natAbs else Nat.toDigits 10 n.natAbs

/-- A double. There are no words for infinities and for "not a number", so these are written as
`null`. -/
def writeDouble (x : Float) : List Char :=
  match Decimal.Binary.ofFloat x with
  | .finite .. => (Decimal.Layout.event.write x).toList
  | _ => "null".toList

mutual

/-- The compact text of a value. -/
def Value.write : Value → List Char
  | .null => "null".toList
  | .bool true => "true".toList
  | .bool false => "false".toList
  | .whole n => writeWhole n
  | .real x => writeDouble x
  | .text s => quote s
  | .list items => '[' :: writeItems items
  | .record members => '{' :: writeMembers members

/-- The items of a list and its closing bracket. -/
def writeItems : List Value → List Char
  | [] => [']']
  | [item] => item.write ++ [']']
  | item :: next :: items => item.write ++ ',' :: writeItems (next :: items)

/-- The members of a record and its closing brace. -/
def writeMembers : List (String × Value) → List Char
  | [] => ['}']
  | [(name, value)] => quote name ++ ':' :: value.write ++ ['}']
  | (name, value) :: next :: members =>
    quote name ++ ':' :: value.write ++ ',' :: writeMembers (next :: members)

end

/-- The compact text of a value. -/
def Value.render (v : Value) : String := String.ofList v.write

end Json

end QueryTelemetry
