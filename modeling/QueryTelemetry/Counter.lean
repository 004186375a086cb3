/-!
# Counter values

The statistics of a statement are cumulative counters: whole numbers of 64 bits for calls and
blocks, doubles for times. Whole numbers stay in their range by stopping at its ends instead of
wrapping around; as soon as a double takes part, the calculation is done in doubles.
-/

namespace QueryTelemetry

namespace Saturating

/-- The whole number of 64 bits nearest to an integer. -/
def ofInt (n : Int) : Int64 :=
  if n < Int64.minValue.toInt then Int64.minValue
  else if Int64.maxValue.toInt < n then Int64.maxValue
  else Int64.ofInt n

/-- The sum, or the end of the range that it lies beyond. -/
def add (a b : Int64) : Int64 := ofInt (a.toInt + b.toInt)

/-- The difference, or the end of the range that it lies beyond. -/
def sub (a b : Int64) : Int64 := ofInt (a.toInt - b.toInt)

/-- Within the range nothing is cut off. -/
theorem toInt_ofInt {n : Int} (low : Int64.minValue.toInt ≤ n) (high : n ≤ Int64.maxValue.toInt) :
    (ofInt n).toInt = n := by
  rw [ofInt, if_neg (by omega), if_neg (by omega)]
  have hmin : Int64.minValue.toInt = -2 ^ 63 := by decide
  have hmax : Int64.maxValue.toInt = 2 ^ 63 - 1 := by decide
  exact Int64.toInt_ofInt_of_le (by omega) (by omega)

end Saturating

/-- The value of a cumulative counter. -/
inductive Counter
  /-- A number of calls, rows or blocks. -/
  | whole (n : Int64)
  /-- A time. -/
  | real (x : Float)

namespace Counter

/-- The value as a double. -/
def toFloat : Counter → Float
  | whole n => n.toFloat
  | real x => x

/-- Whether the value is zero; minus zero is zero. -/
def isZero : Counter → Bool
  | whole n => n == 0
  | real x => x == 0.0

/-- How much a counter has grown since it was `old`. -/
def growth : (now old : Counter) → Counter
  | whole a, whole b => whole (Saturating.sub a b)
  | a, b => real (a.toFloat - b.toFloat)

/-- The sum of two counters. -/
def add : Counter → Counter → Counter
  | whole a, whole b => whole (Saturating.add a b)
  | a, b => real (a.toFloat + b.toFloat)

/-- The order of two doubles; none if one of them is not a number. -/
def compareFloats (x y : Float) : Option Ordering :=
  if x < y then some .lt
  else if y < x then some .gt
  else if x == y then some .eq
  else none

/-- The order of two values. A whole number is compared with a double as a double. -/
def compare? : Counter → Counter → Option Ordering
  | whole a, whole b => some (compare a.toInt b.toInt)
  | a, b => compareFloats a.toFloat b.toFloat

/-- Whether a counter has gone down. Nothing is less than a value that is not a number. -/
def isLess (a b : Counter) : Bool := a.compare? b == some .lt

/-- Whether two values are the same number; the kind of number does not matter. -/
def sameNumber (a b : Counter) : Bool := a.compare? b == some .eq

end Counter

end QueryTelemetry
