import QueryTelemetry.Duration
import QueryTelemetry.Proofs.Decimal.Normal
import QueryTelemetry.Proofs.Decimal.Rounding

/-!
# Durations from seconds and back

A number of seconds becomes a duration by rounding its exact value
(`Duration.exists_value_of_ofSeconds?`). The other way, a duration in seconds is zero only if the
duration is (`Duration.zero_lt_toSeconds_iff`).
-/

namespace QueryTelemetry

open Decimal

namespace Duration

/-- Only numbers become durations, and of those with a sign only zero. -/
theorem exists_finite_of_ofSeconds? {x : Float} {d : Duration} (h : ofSeconds? x = some d) :
    ∃ negative significand exponent,
      Binary.ofFloat x = .finite negative significand exponent ∧
      (negative = true → significand = 0) ∧
      d.nanoseconds = roundHalfEven (significand * 2 ^ exponent.toNat * perSecond)
        (2 ^ (-exponent).toNat) := by
  rw [ofSeconds?] at h
  split at h
  · cases h
  · cases h
  · rename_i negative significand exponent hx
    simp only at h
    split_ifs at h with hsign hfits
    obtain rfl := Option.some.inj h
    exact ⟨negative, significand, exponent, hx, fun hnegative =>
      not_not.mp fun hne => hsign ⟨hnegative, hne⟩, rfl⟩

/-- Seconds become the nearest whole number of nanoseconds. -/
theorem exists_value_of_ofSeconds? {x : Float} {d : Duration} (h : ofSeconds? x = some d) :
    ∃ seconds, (Binary.ofFloat x).value? = some seconds ∧ 0 ≤ seconds ∧
      IsNearest d.nanoseconds (seconds * 1000000000) := by
  obtain ⟨negative, significand, exponent, hx, hsign, hd⟩ := exists_finite_of_ofSeconds? h
  have hvalue : (Binary.ofFloat x).value? = some (Binary.scaled significand exponent) := by
    rw [hx]
    cases negative with
    | false => rfl
    | true => simp [Binary.value?, Binary.scaled, hsign rfl]
  have hnear := isNearest_roundHalfEven (significand * 2 ^ exponent.toNat * perSecond)
    (Nat.two_pow_pos (-exponent).toNat)
  refine ⟨_, hvalue, div_nonneg (Nat.cast_nonneg _) (Nat.cast_nonneg _), ?_⟩
  rw [hd, Binary.scaled, div_mul_eq_mul_div]
  rw [Nat.cast_mul] at hnear
  exact hnear

/-- Seconds never become the longest duration. -/
theorem ne_longest_of_ofSeconds? {x : Float} {d : Duration} (h : ofSeconds? x = some d) :
    d ≠ longest := by
  obtain ⟨negative, significand, exponent, hx, -, hd⟩ := exists_finite_of_ofSeconds? h
  have hsignificand := Binary.significand_lt hx
  rintro rfl
  by_cases hexponent : 0 ≤ exponent
  · -- a whole number of seconds
    have hwhole : roundHalfEven (significand * 2 ^ exponent.toNat * perSecond)
        (2 ^ (-exponent).toNat) = significand * 2 ^ exponent.toNat * perSecond := by
      rw [show (-exponent).toNat = 0 by omega]
      simpa using
        roundHalfEven_mul_left (significand * 2 ^ exponent.toNat * perSecond) 1 Nat.one_pos
    rw [hwhole] at hd
    change 2 ^ 64 * 10 ^ 9 - 1 = _ * 10 ^ 9 at hd
    omega
  · -- fewer than `2 ^ 53` seconds
    have hle := roundHalfEven_le_succ_div (significand * 2 ^ exponent.toNat * perSecond)
      (2 ^ (-exponent).toNat)
    have hdiv := Nat.div_le_self (significand * 2 ^ exponent.toNat * perSecond)
      (2 ^ (-exponent).toNat)
    rw [show exponent.toNat = 0 by omega] at *
    change 2 ^ 64 * 10 ^ 9 - 1 = _ at hd
    change _ ≤ significand * 1 * 10 ^ 9 at hdiv
    omega

/-- A duration in seconds is above zero exactly if it has a nanosecond. -/
theorem zero_lt_toSeconds_iff (d : Duration) : 0.0 < d.toSeconds ↔ 0 < d.nanoseconds := by
  have hwhole : d.wholeSeconds < 2 ^ 64 := Nat.div_lt_of_lt_mul (by rw [Nat.mul_comm]; exact d.fits)
  have hrest : d.subsecond < 2 ^ 64 := (Nat.mod_lt _ (by decide)).trans (by decide)
  have hperSecond : IsNormal (-23) (-23) (1000000000.0 : Float).toModel.unpack :=
    isNormal_of_ofFloat (m := 10 ^ 9 * 2 ^ 23) (by decide +kernel) (by decide) (by decide)
  have hfraction : NormalIf (d.subsecond.toUInt64 ≠ 0) (-82) 12
      (d.subsecond.toUInt64.toFloat / 1000000000.0) :=
    ((normalIf_toFloat _).div hperSecond (by decide) (by decide)).mono (by decide) (by decide)
  have hsum : NormalIf _ (-82) 14 d.toSeconds :=
    ((normalIf_toFloat d.wholeSeconds.toUInt64).mono (by decide) (by decide)).add hfraction
      (by decide) (by decide)
  have hzero {n : Nat} (hn : n < 2 ^ 64) : n.toUInt64 ≠ 0 ↔ n ≠ 0 := by
    rw [not_iff_not, ← UInt64.toNat_inj, Nat.toUInt64, UInt64.toNat_ofNat', Nat.mod_eq_of_lt hn]
    rfl
  rw [hsum.zero_lt_iff, hzero hwhole, hzero hrest]
  change d.nanoseconds / 10 ^ 9 ≠ 0 ∨ d.nanoseconds % 10 ^ 9 ≠ 0 ↔ 0 < d.nanoseconds
  omega

end Duration

end QueryTelemetry
