import Mathlib
import QueryTelemetry.Decimal.Binary

/-!
# The parts of a double

Arithmetic on doubles takes a pattern of bits apart into a sign, a significand and an exponent, and
`Binary.ofFloat` does the same with numbers of its own. Both find the same (`Binary.ofFloat_eq`), so
that comparisons can be read off the parts (`Binary.zero_lt_iff`), and the exact value
(`Binary.value?`) as well.
-/

open Float.Model

namespace QueryTelemetry

namespace Decimal

/-- Whether a sign is the one of negative numbers. -/
def isNegative : UnpackedFloat.Sign → Bool
  | .negative => true
  | .positive => false

section Bits

variable (b : BitVec Format.binary64.numBits)

theorem toNat_unpackMantissa :
    (UnpackedFloat.unpackMantissa b : BitVec 52).toNat = b.toNat % 2 ^ 52 := by
  simp [UnpackedFloat.unpackMantissa]

theorem toNat_unpackExponent :
    (UnpackedFloat.unpackExponent b : BitVec 11).toNat = b.toNat / 2 ^ 52 % 2 ^ 11 := by
  simp [UnpackedFloat.unpackExponent, Nat.shiftRight_eq_div_pow]

theorem toNat_unpackSign : (UnpackedFloat.unpackSign b).toNat = b.toNat / 2 ^ 63 % 2 := by
  simp [UnpackedFloat.unpackSign, Nat.shiftRight_eq_div_pow]

/-- The first bit is set for negative numbers. -/
theorem ofBitVec_unpackSign :
    (isNegative (UnpackedFloat.Sign.ofBitVec (UnpackedFloat.unpackSign b))) =
      (b.toNat / 2 ^ 63 % 2 == 1) := by
  rw [← toNat_unpackSign]
  generalize UnpackedFloat.unpackSign b = sign
  revert sign
  decide

/-- In front of the bits of a fraction a significand has one more. -/
theorem toNat_one_append (v : BitVec 52) : (1#1 ++ v).toNat = v.toNat + 2 ^ 52 := by
  have h := Nat.two_pow_add_eq_or_of_lt v.isLt 1
  rw [Nat.mul_one] at h
  rw [BitVec.toNat_append, Nat.add_comm, h]
  rfl

end Bits

/-- A double as arithmetic takes it apart. -/
def Binary.ofUnpacked : UnpackedFloat → Binary
  | .notANumber => .nan
  | .infinity sign => .infinite (isNegative sign)
  | .zero sign => .finite (isNegative sign) 0 Format.double.leastExponent
  | .finite sign m e _ => .finite (isNegative sign) m e

/-- A double is taken apart here as arithmetic does it. -/
theorem Binary.ofFloat_eq (x : Float) : Binary.ofFloat x = .ofUnpacked x.toModel.unpack := by
  have split (b : BitVec Format.binary64.numBits) (h : b.toNat = x.toBits.toNat) :
      Binary.ofFloat x = .ofUnpacked (UnpackedFloat.unpack Format.binary64 b) := by
    rw [Binary.ofFloat, UnpackedFloat.unpack, ← h, ← ofBitVec_unpackSign, ← toNat_unpackMantissa,
      ← toNat_unpackExponent]
    have hmax : UnpackedFloat.unpackExponent b = -1#(Format.binary64.exponentBits) ↔
        (UnpackedFloat.unpackExponent b).toNat = 2 ^ 11 - 1 := by
      rw [← BitVec.toNat_inj]
      rfl
    have hleast : UnpackedFloat.unpackExponent b = 0#(Format.binary64.exponentBits) ↔
        (UnpackedFloat.unpackExponent b).toNat = 0 := by
      rw [← BitVec.toNat_inj]
      rfl
    have hnone : UnpackedFloat.unpackMantissa b = 0#(Format.binary64.mantissaBitsWithoutImplicit) ↔
        (UnpackedFloat.unpackMantissa b).toNat = 0 := by
      rw [← BitVec.toNat_inj]
      rfl
    simp only [hmax, hleast, hnone]
    split_ifs with h1 h2 h2 h3
    · rfl
    · rfl
    · rw [h3]
      rfl
    · simp only [Binary.ofUnpacked, h2]
      rfl
    · simp only [Binary.ofUnpacked, toNat_one_append]
      rfl
  exact split x.toModel.toBits.toBitVec rfl

/-- A double is above zero if it is infinite, or if it is a number other than zero, without a
sign. -/
theorem Binary.zero_lt_iff {x : Float} :
    0.0 < x ↔ Binary.ofFloat x = .infinite false ∨
      ∃ significand exponent, significand ≠ 0 ∧
        Binary.ofFloat x = .finite false significand exponent := by
  have hzero : (0.0 : Float).toModel.unpack = .zero .positive := by
    have h := Binary.ofFloat_eq 0.0
    rw [show Binary.ofFloat 0.0 = .finite false 0 (-1074) by decide +kernel] at h
    revert h
    rcases (0.0 : Float).toModel.unpack with sign | _ | sign | ⟨sign, m, e, hm⟩ <;> intro h
    · cases h
    · cases h
    · cases sign
      · cases h
      · rfl
    · obtain ⟨-, rfl, -⟩ := Binary.finite.inj h
      exact absurd hm (Nat.lt_irrefl 0)
  have hlt : 0.0 < x ↔ UnpackedFloat.lt (.zero .positive) x.toModel.unpack = true := by
    rw [← hzero]
    exact decide_eq_true_iff
  rw [hlt, Binary.ofFloat_eq]
  rcases x.toModel.unpack with sign | _ | sign | ⟨sign, m, e, hm⟩
  · cases sign <;> simp [UnpackedFloat.lt, UnpackedFloat.compare, Binary.ofUnpacked, isNegative]
  · simp [UnpackedFloat.lt, UnpackedFloat.compare, Binary.ofUnpacked]
  · simp [UnpackedFloat.lt, UnpackedFloat.compare, Binary.ofUnpacked]
  · cases sign <;>
      simp [UnpackedFloat.lt, UnpackedFloat.compare, Binary.ofUnpacked, isNegative,
        Nat.ne_of_gt hm]

namespace Binary

/-- A whole number times a power of two. -/
def scaled (significand : Nat) (exponent : Int) : ℚ :=
  ((significand * 2 ^ exponent.toNat : Nat) : ℚ) / ((2 ^ (-exponent).toNat : Nat) : ℚ)

/-- The exact value of a double, if it is a number. -/
def value? : Binary → Option ℚ
  | .nan => none
  | .infinite _ => none
  | .finite negative significand exponent =>
    some (if negative then -scaled significand exponent else scaled significand exponent)

theorem scaled_pos_iff {significand : Nat} {exponent : Int} :
    0 < scaled significand exponent ↔ significand ≠ 0 := by
  have hden : (0 : ℚ) < (2 ^ (-exponent).toNat : Nat) := Nat.cast_pos.mpr (Nat.two_pow_pos _)
  rw [scaled, div_pos_iff_of_pos_right hden, Nat.cast_pos, Nat.pos_iff_ne_zero]
  exact not_congr ⟨fun h => (Nat.mul_eq_zero.mp h).resolve_right (Nat.two_pow_pos _).ne',
    fun h => by rw [h, Nat.zero_mul]⟩

/-- A double is above zero exactly if its value is. -/
theorem zero_lt_iff_value_pos {x : Float} {value : ℚ} (h : (ofFloat x).value? = some value) :
    0.0 < x ↔ 0 < value := by
  rw [zero_lt_iff]
  cases hx : ofFloat x with
  | nan => rw [hx] at h; cases h
  | infinite negative => rw [hx] at h; cases h
  | finite negative significand exponent =>
    rw [hx] at h
    obtain rfl := Option.some.inj h
    cases negative with
    | false => simp [scaled_pos_iff]
    | true =>
      have hnonneg : 0 ≤ scaled significand exponent :=
        div_nonneg (Nat.cast_nonneg _) (Nat.cast_nonneg _)
      simp [hnonneg]

/-- A significand has 53 bits. -/
theorem significand_lt {x : Float} {negative : Bool} {significand : Nat} {exponent : Int}
    (h : ofFloat x = .finite negative significand exponent) : significand < 2 ^ 53 := by
  have hfraction : x.toBits.toNat % 2 ^ 52 < 2 ^ 52 := Nat.mod_lt _ (Nat.two_pow_pos _)
  rw [ofFloat] at h
  split_ifs at h
  · obtain ⟨-, rfl, -⟩ := finite.inj h
    omega
  · obtain ⟨-, rfl, -⟩ := finite.inj h
    omega

end Binary

end Decimal
end QueryTelemetry
