import QueryTelemetry.Decimal.Binary

/-!
# Spans of time

A duration is a whole number of nanoseconds whose seconds fit into 64 bits. A number of seconds
given as a double becomes a duration by rounding its exact binary value to the nearest
nanosecond, an exact half to the even neighbour.
-/

namespace QueryTelemetry

/-- A span of time, never negative. -/
structure Duration where
  nanoseconds : Nat
  fits : nanoseconds < 2 ^ 64 * 10 ^ 9
  deriving DecidableEq

namespace Duration

/-- Nanoseconds in a second. -/
def perSecond : Nat := 10 ^ 9

/-- The longest duration. -/
def longest : Duration := ⟨2 ^ 64 * 10 ^ 9 - 1, by decide⟩

/-- A whole number of seconds below `2 ^ 64`; a larger one becomes the longest duration. -/
def ofWholeSeconds (seconds : Nat) : Duration :=
  if h : seconds < 2 ^ 64 then ⟨seconds * 10 ^ 9, by omega⟩ else longest

/-- A number of nanoseconds; one that is too large becomes the longest duration. -/
def ofNanoseconds (n : Nat) : Duration :=
  if h : n < 2 ^ 64 * 10 ^ 9 then ⟨n, h⟩ else longest

/-- The whole seconds. -/
def wholeSeconds (d : Duration) : Nat := d.nanoseconds / perSecond

/-- The nanoseconds after the last whole second. -/
def subsecond (d : Duration) : Nat := d.nanoseconds % perSecond

/-- The shorter of two durations. -/
def min (a b : Duration) : Duration := if a.nanoseconds ≤ b.nanoseconds then a else b

/-- The duration nearest to a number of seconds. There is none for a negative number, for one
that is not finite and for one that rounds to `2 ^ 64` seconds or more. Minus zero is zero. -/
def ofSeconds? (seconds : Float) : Option Duration :=
  match Decimal.Binary.ofFloat seconds with
  | .nan => none
  | .infinite _ => none
  | .finite negative significand exponent =>
    if negative ∧ significand ≠ 0 then none
    else
      let n := Decimal.roundHalfEven (significand * 2 ^ exponent.toNat * perSecond)
        (2 ^ (-exponent).toNat)
      if h : n < 2 ^ 64 * 10 ^ 9 then some ⟨n, h⟩ else none

/-- The duration as a double: the whole seconds plus the fraction, each rounded on its own. -/
def toSeconds (d : Duration) : Float :=
  d.wholeSeconds.toUInt64.toFloat + d.subsecond.toUInt64.toFloat / 1000000000.0

end Duration

end QueryTelemetry
