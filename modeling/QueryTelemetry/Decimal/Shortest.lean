import QueryTelemetry.Decimal.Binary

/-!
# The shortest decimal that reads back

Around every finite double lies the interval of real numbers that round to it. `shortest` finds
the decimal number with the fewest digits in that interval, and of those the one nearest to the
double. It tries one grid of powers of ten after the other, from coarse to fine; on each grid only
the two neighbours of the double can be the answer, since a grid with a point in the interval also
has a neighbour of the double in it.
-/

namespace QueryTelemetry

namespace Decimal

/-- What to do when two decimals of the same length are equally near. -/
inductive Tie
  /-- Take the one whose last digit is even. -/
  | toEven
  /-- Take the larger one in magnitude. -/
  | awayFromZero
  deriving DecidableEq, Repr

/-- The decimal number `coefficient * 10 ^ exponent`. -/
structure Scaled where
  coefficient : Nat
  exponent : Int
  deriving DecidableEq, Repr

/-- The positive double `significand * 2 ^ exponent` with the interval that rounds to it, in
quarters of its last binary place. -/
structure Interval where
  /-- The lower end. -/
  low : Nat
  /-- The double itself. -/
  mid : Nat
  /-- The upper end. -/
  high : Nat
  /-- Whether the ends round to the double. -/
  closed : Bool
  /-- The exponent of the unit: a number `n` stands for `n * 2 ^ unit`. -/
  unit : Int

namespace Interval

/-- The interval of `significand * 2 ^ exponent`. Below a power of two the doubles lie twice as
dense, so there the lower half is half as wide. -/
def around (significand : Nat) (exponent : Int) : Interval where
  low :=
    if significand = 2 ^ 52 ∧ Format.double.leastExponent < exponent then 4 * significand - 1
    else 4 * significand - 2
  mid := 4 * significand
  high := 4 * significand + 2
  closed := significand % 2 == 0
  unit := exponent - 2

/-- Both factors that bring `n * 2 ^ unit` and `d * 10 ^ place` to a common scale. -/
def commonScale (unit place : Int) : Nat × Nat :=
  (2 ^ unit.toNat * 10 ^ (-place).toNat, 10 ^ place.toNat * 2 ^ (-unit).toNat)

/-- The point of the grid `10 ^ place` that stands for the double, if one lies in the interval. -/
def pointOnGrid? (tie : Tie) (i : Interval) (place : Int) : Option Nat :=
  let (binary, decimal) := commonScale i.unit place
  let below := i.mid * binary / decimal
  let inside (d : Nat) : Bool :=
    let x := d * decimal
    if i.closed then i.low * binary ≤ x && x ≤ i.high * binary
    else i.low * binary < x && x < i.high * binary
  let above := below + 1
  match inside below, inside above with
  | true, false => some below
  | false, true => some above
  | false, false => none
  | true, true =>
    let twice := 2 * (i.mid * binary)
    let middle := (below + above) * decimal
    if twice < middle then some below
    else if middle < twice then some above
    else match tie with
      | .toEven => some (if below % 2 = 0 then below else above)
      | .awayFromZero => some above

/-- Goes through `grids` finer and finer grids. Seventeen digits always suffice, so the answer
after the last grid is never needed. It has a digit all the same. -/
def search (tie : Tie) (i : Interval) : (grids : Nat) → (place : Int) → Scaled
  | 0, place => ⟨1, place⟩
  | grids + 1, place =>
    match i.pointOnGrid? tie place with
    | some point => ⟨point, place⟩
    | none => search tie i grids (place - 1)

/-- A place at or above the first digit of `significand * 2 ^ exponent`. The factor is the decimal
logarithm of two, rounded up in its fifth place. -/
def topPlace (significand : Nat) (exponent : Int) : Int :=
  Int.fdiv (((significand.log2 : Int) + exponent + 1) * 30103) 100000 + 1

end Interval

/-- The shortest decimal that rounds to the positive double `significand * 2 ^ exponent`. -/
def shortest (tie : Tie) (significand : Nat) (exponent : Int) : Scaled :=
  (Interval.around significand exponent).search tie 20 (Interval.topPlace significand exponent)

end Decimal

end QueryTelemetry
