/-!
# Floating point numbers as exact binary fractions

A finite floating point number is a whole number times a power of two. `Binary.ofFloat` takes a
double apart into that form. `Format.nearestBits` goes the other way: it finds the number of a
format closest to a quotient of natural numbers, for doubles and singles alike. Everything that
reads, prints or rounds such a number in this library goes through these two, so that all of it is
exact arithmetic on natural numbers.
-/

namespace QueryTelemetry

/-- Powers are the built-in ones, also where a library brings powers of its own. -/
@[default_instance 20000]
scoped instance (priority := 2000) instPowBuiltIn {α : Type} [NatPow α] : Pow α Nat := instPowNat

namespace Decimal

/-- The quotient rounded to the nearest whole number; an exact half goes to the even neighbour. -/
def roundHalfEven (num den : Nat) : Nat :=
  let quotient := num / den
  let twice := 2 * (num % den)
  if den < twice ∨ (twice = den ∧ quotient % 2 = 1) then quotient + 1 else quotient

/-- A rounded quotient is the whole part or the number after it. -/
theorem roundHalfEven_le_succ_div (num den : Nat) :
    roundHalfEven num den ≤ num / den + 1 := by
  simp only [roundHalfEven]
  split <;> omega

/-- Whole numbers are not moved by rounding. -/
theorem roundHalfEven_mul_left (n den : Nat) (h : 0 < den) :
    roundHalfEven (n * den) den = n := by
  simp only [roundHalfEven, Nat.mul_div_cancel n h, Nat.mul_mod_left]
  split <;> omega

/-! ### Formats -/

/-- A binary number format: the digits of its significands and the size of its exponents. -/
structure Format where
  /-- The number of binary digits of a significand. -/
  precision : Nat
  /-- The number of bits that hold an exponent. -/
  exponentBits : Nat
  deriving DecidableEq, Repr

namespace Format

/-- Numbers of 64 bits. -/
def double : Format := ⟨53, 11⟩

/-- Numbers of 32 bits. -/
def single : Format := ⟨24, 8⟩

/-- The least exponent: two to that power is the distance between the subnormal numbers. -/
def leastExponent (f : Format) : Int := 3 - 2 ^ (f.exponentBits - 1) - f.precision

/-- The number of bit patterns that share an exponent. -/
def fractions (f : Format) : Nat := 2 ^ (f.precision - 1)

/-- The bits of infinity, which follow those of the largest number. -/
def infinity (f : Format) : Nat := (2 ^ f.exponentBits - 1) * f.fractions

/-- The exponent of the number nearest to `num / den`: the one for which the quotient has as many
binary digits as a significand, or the least one. -/
private def exponentOfQuotient (f : Format) (num den : Nat) : Int :=
  let guess : Int := (num.log2 : Int) - den.log2 - (f.precision - 1 : Nat)
  let isHigh := num * 2 ^ (-guess).toNat < f.fractions * (den * 2 ^ guess.toNat)
  let full := if isHigh then guess - 1 else guess
  max full f.leastExponent

/-- The bits of the number nearest to `num / den`, ties to even; beyond the largest number it is
infinity.

The bits of a number are `fractions` times the distance of its exponent from the least one, plus
the significand. That holds for subnormal numbers too, and a significand that rounds up to the next
power of two carries into the next exponent by itself. -/
def nearestBits (f : Format) (num den : Nat) : Nat :=
  if num = 0 then 0
  else
    let exponent := f.exponentOfQuotient num den
    let significand :=
      roundHalfEven (num * 2 ^ (-exponent).toNat) (den * 2 ^ exponent.toNat)
    min ((exponent - f.leastExponent).toNat * f.fractions + significand) f.infinity

/-- The bits of the number nearest to `digits * 10 ^ exponent`. Decimal numbers far above the
largest double or below the least one are answered without computing the power of ten. -/
def decimalBits (f : Format) (digits : Nat) (exponent : Int) : Nat :=
  if digits = 0 then 0
  else
    let order := ((toString digits).length : Int) + exponent
    if 310 < order then f.infinity
    else if order < -330 then 0
    else f.nearestBits (digits * 10 ^ exponent.toNat) (10 ^ (-exponent).toNat)

/-- The bits of a number with the bit for its sign in front. -/
def withSign (f : Format) (negative : Bool) (bits : Nat) : Nat :=
  if negative then 2 ^ f.exponentBits * f.fractions + bits else bits

end Format

/-! ### Doubles -/

/-- A double taken apart. A finite one is `significand * 2 ^ exponent`, with its sign apart, so
that the two zeros stay different. -/
inductive Binary
  /-- Not a number. -/
  | nan
  /-- One of the two infinities. -/
  | infinite (negative : Bool)
  /-- The number `± significand * 2 ^ exponent`. -/
  | finite (negative : Bool) (significand : Nat) (exponent : Int)
  deriving DecidableEq, Repr

namespace Binary

/-- Reads the sign bit, the eleven bits of the exponent and the 52 bits of the fraction. -/
def ofFloat (x : Float) : Binary :=
  let bits := x.toBits.toNat
  let negative := bits / 2 ^ 63 % 2 == 1
  let biased : Nat := bits / 2 ^ 52 % 2 ^ 11
  let fraction := bits % 2 ^ 52
  if biased = 2 ^ 11 - 1 then
    if fraction = 0 then infinite negative else nan
  else if biased = 0 then finite negative fraction Format.double.leastExponent
  else finite negative (fraction + 2 ^ 52) ((biased : Int) - 1075)

end Binary

/-- The double nearest to `num / den`, ties to even; beyond the largest double it is infinity. -/
def nearest (num den : Nat) : Float :=
  Float.ofBits (Format.double.nearestBits num den).toUInt64

/-- The double nearest to `± digits * 10 ^ exponent`. A number with no digit other than zero keeps
its sign. -/
def ofScientific (negative : Bool) (digits : Nat) (exponent : Int) : Float :=
  Float.ofBits
    (Format.double.withSign negative (Format.double.decimalBits digits exponent)).toUInt64

/-- The single nearest to `± digits * 10 ^ exponent`, found at once and not by way of a double. -/
def singleOfScientific (negative : Bool) (digits : Nat) (exponent : Int) : Float32 :=
  Float32.ofBits
    (Format.single.withSign negative (Format.single.decimalBits digits exponent)).toUInt32

end Decimal

end QueryTelemetry
