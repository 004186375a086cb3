import QueryTelemetry.Decimal.Shortest

/-!
# How a double is written

A double is written with the fewest digits that read back. A `Layout` holds what a format decides
beyond that: which numbers are written without an exponent, whether a whole number ends in a
point and a zero, and which of two equally short and near decimals is taken. Two layouts are in
use: one for event documents, one for messages to people.
-/

namespace QueryTelemetry

namespace Decimal

/-- The decisions of a number format. -/
structure Layout where
  tie : Tie
  /-- The powers of ten of the first digit for which no exponent is written. -/
  positional : Int → Bool
  /-- Whether a whole number without an exponent ends in a point and a zero. -/
  pointZero : Bool

namespace Layout

/-- In event documents numbers from `10 ^ (-5)` up to `10 ^ 16` are written without an exponent,
and a whole number shows that it is a floating point number. -/
def event : Layout := ⟨.toEven, fun power => -5 ≤ power && power ≤ 15, true⟩

/-- In messages no number has an exponent, and a whole number looks like one. -/
def message : Layout := ⟨.awayFromZero, fun _ => true, false⟩

/-- The digits `first :: rest` with the first one at the power of ten `power`, no exponent. -/
def writePositional (pointZero : Bool) (digits : List Char) (power : Int) : List Char :=
  if power < 0 then '0' :: '.' :: (List.replicate ((-power).toNat - 1) '0' ++ digits)
  else
    let whole := power.toNat + 1
    if digits.length ≤ whole then
      digits ++ List.replicate (whole - digits.length) '0' ++ (if pointZero then ['.', '0'] else [])
    else digits.take whole ++ '.' :: digits.drop whole

/-- One digit, the other digits after a point, and the exponent with its sign. -/
def writeScientific (digits : List Char) (power : Int) : List Char :=
  let mantissa :=
    match digits with
    | first :: second :: more => first :: '.' :: second :: more
    | short => short
  mantissa ++ 'e' :: (if power < 0 then '-' else '+') :: Nat.toDigits 10 power.natAbs

/-- The digits of a coefficient without the zeros at its end, and the power of ten of the first
digit. -/
def digitsAndPower (s : Scaled) : List Char × Int :=
  let digits := Nat.toDigits 10 s.coefficient
  let significant := (digits.reverse.dropWhile (· == '0')).reverse
  (if significant.isEmpty then ['0'] else significant, s.exponent + digits.length - 1)

/-- The text of a double. -/
def write (layout : Layout) (x : Float) : String :=
  match Binary.ofFloat x with
  | .nan => "NaN"
  | .infinite negative => if negative then "-inf" else "inf"
  | .finite negative significand exponent =>
    let (digits, power) :=
      if significand = 0 then (['0'], 0)
      else digitsAndPower (shortest layout.tie significand exponent)
    let magnitude :=
      if layout.positional power then writePositional layout.pointZero digits power
      else writeScientific digits power
    String.ofList (if negative then '-' :: magnitude else magnitude)

end Layout

end Decimal

end QueryTelemetry
