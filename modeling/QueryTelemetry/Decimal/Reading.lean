import QueryTelemetry.Decimal.Binary

/-!
# Numbers given as text

Settings, command line options and query results hold numbers as text. `Numeral.parse?` reads
decimal notation with an optional sign, point and exponent, and the words for the infinities and
for "not a number" in any case; `float?` and `single?` give the number of their format nearest to
it. `natural?` and `integer?` read whole numbers. None of them skips blanks.
-/

namespace QueryTelemetry

namespace Decimal

/-- The number that a list of digits stands for, after the digits already read. -/
def digitsValue (start : Nat) (digits : List Char) : Nat :=
  digits.foldl (fun n c => 10 * n + (c.toNat - '0'.toNat)) start

/-- A whole number: one digit or more and nothing else. -/
def digits? (text : List Char) : Option Nat :=
  if text ≠ [] ∧ text.all Char.isDigit then some (digitsValue 0 text) else none

/-- Splits off a sign; the flag says whether it was a minus. -/
def takeSign : List Char → Bool × List Char
  | '-' :: rest => (true, rest)
  | '+' :: rest => (false, rest)
  | text => (false, text)

/-- A whole number without a sign or with a plus. -/
def natural? : List Char → Option Nat
  | '+' :: rest => digits? rest
  | text => digits? text

/-- A whole number with an optional sign. -/
def integer? (text : List Char) : Option Int :=
  let (negative, rest) := takeSign text
  (digits? rest).map fun n => if negative then -(n : Int) else n

/-- The exponent that ends a number: nothing, or the mark `e` and a whole number. -/
private def exponent? : List Char → Option Int
  | [] => some 0
  | c :: rest => if c = 'e' ∨ c = 'E' then integer? rest else none

/-- A number in decimal notation, before it is rounded to a format. -/
inductive Numeral
  /-- Not a number. -/
  | nan
  /-- One of the two infinities. -/
  | infinite (negative : Bool)
  /-- The number `± digits * 10 ^ exponent`. -/
  | decimal (negative : Bool) (digits : Nat) (exponent : Int)
  deriving DecidableEq, Repr

namespace Numeral

/-- Decimal notation without its sign: digits with a point before, between or after them, at
least one digit in all, then the exponent. -/
private def unsigned? (negative : Bool) (text : List Char) : Option Numeral :=
  let whole := text.takeWhile Char.isDigit
  let afterWhole := text.dropWhile Char.isDigit
  let (fraction, rest) :=
    match afterWhole with
    | '.' :: more => (more.takeWhile Char.isDigit, more.dropWhile Char.isDigit)
    | more => ([], more)
  if whole.isEmpty && fraction.isEmpty then none
  else
    (exponent? rest).map fun exponent =>
      decimal negative (digitsValue 0 (whole ++ fraction)) (exponent - fraction.length)

/-- A decimal number, or one of the named values. -/
def parse? (text : List Char) : Option Numeral :=
  let (negative, rest) := takeSign text
  let word := rest.map Char.toLower
  if word = "inf".toList ∨ word = "infinity".toList then some (infinite negative)
  else if word = "nan".toList then some nan
  else unsigned? negative rest

/-- The double nearest to a number. -/
def toFloat : Numeral → Float
  | nan => 0.0 / 0.0
  | infinite negative => if negative then -(1.0 / 0.0) else 1.0 / 0.0
  | decimal negative digits exponent => ofScientific negative digits exponent

/-- The single nearest to a number. -/
def toSingle : Numeral → Float32
  | nan => 0.0 / 0.0
  | infinite negative => if negative then -(1.0 / 0.0) else 1.0 / 0.0
  | decimal negative digits exponent => singleOfScientific negative digits exponent

end Numeral

/-- The double nearest to a decimal number, or one of the named values. -/
def float? (text : List Char) : Option Float := (Numeral.parse? text).map Numeral.toFloat

/-- The single nearest to a decimal number, or one of the named values. -/
def single? (text : List Char) : Option Float32 := (Numeral.parse? text).map Numeral.toSingle

end Decimal

end QueryTelemetry
