import Mathlib.Algebra.Order.Field.Basic
import Mathlib.Algebra.Order.Field.Rat
import Mathlib.Tactic.FieldSimp
import Mathlib.Tactic.Linarith
import Mathlib.Tactic.Ring
import Mathlib.Tactic.Positivity
import Mathlib.Tactic.SplitIfs
import QueryTelemetry.Decimal.Binary

/-!
# Rounding to the nearest whole number

`IsNearest` says which whole number is nearest to a rational one, and which of two that are equally
near is taken. `roundHalfEven` finds it for a quotient of natural numbers
(`isNearest_roundHalfEven`).
-/

namespace QueryTelemetry

namespace Decimal

/-- A whole number is nearest to a rational one. Of two that are equally near, it is the even
one. -/
structure IsNearest (n : Nat) (x : ℚ) : Prop where
  near : |x - n| ≤ 1 / 2
  even_of_tie : |x - n| = 1 / 2 → n % 2 = 0

/-- A quotient lies above its whole part by what the division leaves over. -/
theorem div_sub_natDiv (num : Nat) {den : Nat} (hden : 0 < den) :
    (num : ℚ) / den - (num / den : Nat) = (num % den : Nat) / den := by
  have hpos : (0 : ℚ) < den := Nat.cast_pos.mpr hden
  have hnum : (den : ℚ) * (num / den : Nat) + (num % den : Nat) = num := by
    exact_mod_cast Nat.div_add_mod num den
  rw [← hnum]
  field_simp
  ring

/-- A quotient is rounded to the whole number nearest to it. -/
theorem isNearest_roundHalfEven (num : Nat) {den : Nat} (hden : 0 < den) :
    IsNearest (roundHalfEven num den) ((num : ℚ) / den) := by
  have hpos : (0 : ℚ) < den := Nat.cast_pos.mpr hden
  have hrest := div_sub_natDiv num hden
  have hlt : ((num % den : Nat) : ℚ) / den < 1 :=
    (div_lt_one hpos).mpr (Nat.cast_lt.mpr (Nat.mod_lt num hden))
  have hnonneg : 0 ≤ ((num % den : Nat) : ℚ) / den := by positivity
  -- the rounding compares twice the rest with the divisor, so the rest's share with a half
  have hmore : den < 2 * (num % den) ↔ 1 / 2 < ((num % den : Nat) : ℚ) / den := by
    rw [lt_div_iff₀ hpos, ← Nat.cast_lt (α := ℚ)]
    push_cast
    constructor <;> intro h <;> linarith
  have hhalf : 2 * (num % den) = den ↔ ((num % den : Nat) : ℚ) / den = 1 / 2 := by
    rw [div_eq_iff hpos.ne', ← Nat.cast_inj (R := ℚ)]
    push_cast
    constructor <;> intro h <;> linarith
  rw [roundHalfEven]
  simp only [hmore, hhalf]
  generalize ((num % den : Nat) : ℚ) / den = rest at *
  split_ifs with h
  · -- the number after the whole part
    have habove : (num : ℚ) / den - (num / den + 1 : Nat) = -(1 - rest) := by
      rw [Nat.cast_succ]
      linarith
    have hleast : 1 / 2 ≤ rest := h.elim le_of_lt fun h => h.1.ge
    have hdistance : |(num : ℚ) / den - (num / den + 1 : Nat)| = 1 - rest := by
      rw [habove, abs_neg, abs_of_nonneg (by linarith)]
    refine ⟨by linarith, fun htie => ?_⟩
    rw [hdistance] at htie
    rcases h with h | ⟨-, hodd⟩
    · linarith
    · omega
  · -- the whole part
    have hdistance : |(num : ℚ) / den - (num / den : Nat)| = rest := by
      rw [hrest, abs_of_nonneg hnonneg]
    obtain ⟨hmost, hodd⟩ := not_or.mp h
    refine ⟨hdistance.le.trans (not_lt.mp hmost), fun htie => ?_⟩
    exact Nat.mod_two_ne_one.mp fun h => hodd ⟨hdistance.symm.trans htie, h⟩

/-- Zero is nearest to numbers up to a half. -/
theorem IsNearest.eq_zero_iff {n : Nat} {x : ℚ} (h : IsNearest n x) :
    n = 0 ↔ x ≤ 1 / 2 := by
  have hnear := abs_le.mp h.near
  constructor
  · rintro rfl
    simpa using hnear.2
  · intro hle
    -- one is as near as zero to a half, but it is odd
    have hcases : n = 0 ∨ n = 1 := by
      have : (n : ℚ) ≤ 1 := by linarith [hnear.1]
      have : n ≤ 1 := by exact_mod_cast this
      omega
    rcases hcases with rfl | rfl
    · rfl
    · have htie : x = 1 / 2 := by
        have := hnear.1
        push_cast at this
        linarith
      have := h.even_of_tie (by rw [htie]; norm_num)
      omega

end Decimal

end QueryTelemetry
