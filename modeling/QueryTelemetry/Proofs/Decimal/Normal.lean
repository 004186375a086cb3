import QueryTelemetry.Proofs.Decimal.Doubles

/-!
# Doubles with all digits of a significand

Arithmetic on doubles rounds an exact result to 53 digits. `IsNormal` says that a positive number
has all of them, with an exponent in a range. As long as exponents stay away from the least one,
rounding gives such numbers (`isNormal_roundWithAccuracy`), and so do whole numbers
(`normalIf_toFloat`), quotients (`NormalIf.div`) and sums (`NormalIf.add`): a result is zero only if
it is exactly.
-/

open Float.Model

namespace QueryTelemetry

namespace Decimal

open UnpackedFloat

/-- A positive number with all 53 digits of a significand, and with an exponent in a range. -/
def IsNormal (low high : Int) : UnpackedFloat → Prop
  | .finite .positive m e _ => 2 ^ 52 ≤ m ∧ m < 2 ^ 53 ∧ low ≤ e ∧ e ≤ high
  | _ => False

/-- A range of exponents can be widened. -/
theorem IsNormal.mono {u : UnpackedFloat} {low high low' high' : Int} (h : IsNormal low high u)
    (hlow : low' ≤ low) (hhigh : high ≤ high') : IsNormal low' high' u := by
  match u, h with
  | .finite .positive _ _ _, ⟨hm, hfits, hl, hh⟩ =>
    exact ⟨hm, hfits, Int.le_trans hlow hl, Int.le_trans hh hhigh⟩

/-- A significand has 53 digits. -/
theorem log2_significand {m : Nat} (hm : 2 ^ 52 ≤ m) (hfits : m < 2 ^ 53) : m.log2 = 52 :=
  (Nat.log2_eq_iff (by omega)).mpr ⟨hm, hfits⟩

/-! ### Rounding to the digits of a significand -/

/-- Digits that are shifted out are cut off. -/
theorem mantissa_shiftRight (n : Nat) : ∀ em : ExtendedMantissa,
    (em >>> n).mantissa = em.mantissa / 2 ^ n := by
  induction n with
  | zero => simp [HShiftRight.hShiftRight, Nat.repeat]
  | succ n ih =>
    intro em
    rw [Nat.pow_succ, ← Nat.div_div_eq_div_mul, ← ih]
    rfl

/-- Rounding takes the number or the one after it. -/
theorem mantissa_le_roundedMantissa (em : ExtendedMantissa) :
    em.mantissa ≤ em.roundedMantissa ∧ em.roundedMantissa ≤ em.mantissa + 1 := by
  rcases em with ⟨m, _ | _, _ | _⟩ <;>
    simp only [ExtendedMantissa.roundedMantissa, ExtendedMantissa.accuracy,
      Accuracy.roundToNearestEven] <;>
    omega

theorem mantissa_ofMantissaAndAccuracy (m : Nat) (accuracy : Accuracy) :
    (ExtendedMantissa.ofMantissaAndAccuracy m accuracy).mantissa = m := by
  rcases accuracy with _ | (_ | _ | _) <;> rfl

/-- Shifting keeps the leading digits that fit into a significand. -/
theorem shiftToTargetExponent_spec {m : Nat} {e : Int} (hm : 2 ^ 52 ≤ m)
    (he : -1074 ≤ e + (m.log2 - 52 : Nat)) (accuracy : Accuracy) :
    (shiftToTargetExponent Format.binary64 m e accuracy).1.mantissa = m / 2 ^ (m.log2 - 52) ∧
      (shiftToTargetExponent Format.binary64 m e accuracy).2 = e + (m.log2 - 52 : Nat) := by
  have hlog : 52 ≤ m.log2 := (Nat.le_log2 (by omega)).mpr hm
  have htarget : Format.binary64.targetExponent (totalExponent m e) = e + (m.log2 - 52 : Nat) := by
    change max ((m.log2 : Int) + 1 + e - 53) (-1074) = _
    omega
  have hamount : (Format.binary64.targetExponent (totalExponent m e) - e).toNat = m.log2 - 52 := by
    omega
  rw [shiftToTargetExponent, shiftToExponent, hamount]
  exact ⟨by rw [mantissa_shiftRight, mantissa_ofMantissaAndAccuracy], rfl⟩

/-- The leading digits that fit into a significand fill it. -/
theorem div_two_pow_log2_bounds {m : Nat} (hm : 2 ^ 52 ≤ m) :
    2 ^ 52 ≤ m / 2 ^ (m.log2 - 52) ∧ m / 2 ^ (m.log2 - 52) < 2 ^ 53 := by
  have hpos : m ≠ 0 := by omega
  have hlog : 52 ≤ m.log2 := (Nat.le_log2 hpos).mpr hm
  have hle := Nat.log2_self_le hpos
  have hlt := Nat.lt_log2_self (n := m)
  constructor
  · rw [Nat.le_div_iff_mul_le (Nat.two_pow_pos _), ← Nat.pow_add]
    rwa [show 52 + (m.log2 - 52) = m.log2 by omega]
  · rw [Nat.div_lt_iff_lt_mul (Nat.two_pow_pos _), ← Nat.pow_add]
    rwa [show 53 + (m.log2 - 52) = m.log2 + 1 by omega]

/-- Rounding a number with digits enough gives one with all digits of a significand. -/
theorem isNormal_roundWithAccuracy {m : Nat} {e low high : Int} (hm : 2 ^ 52 ≤ m)
    (hleast : -1074 ≤ low) (hlow : low ≤ e + (m.log2 - 52 : Nat))
    (hhigh : e + (m.log2 - 52 : Nat) + 1 ≤ high) (accuracy : Accuracy) :
    IsNormal low high (roundWithAccuracy Format.binary64 .positive m e accuracy) := by
  obtain ⟨hmantissa, hexponent⟩ := shiftToTargetExponent_spec hm (Int.le_trans hleast hlow) accuracy
  obtain ⟨hleading, hfits⟩ := div_two_pow_log2_bounds hm
  have hrounded := mantissa_le_roundedMantissa
    (shiftToTargetExponent Format.binary64 m e accuracy).1
  simp only [roundWithAccuracy]
  rw [hmantissa] at hrounded
  rw [hexponent]
  generalize (shiftToTargetExponent Format.binary64 m e accuracy).1.roundedMantissa = r at *
  -- rounding up may need one more digit
  have hr : 2 ^ 52 ≤ r := Nat.le_trans hleading hrounded.1
  have hlog : r.log2 - 52 ≤ 1 := by
    have : r.log2 < 54 := (Nat.log2_lt (by omega)).mpr (by omega)
    omega
  obtain ⟨hmantissa', hexponent'⟩ := shiftToTargetExponent_spec hr
    (show -1074 ≤ (e + (m.log2 - 52 : Nat)) + (r.log2 - 52 : Nat) by omega) .exact
  obtain ⟨hleading', hfits'⟩ := div_two_pow_log2_bounds hr
  rw [← hmantissa'] at hleading' hfits'
  rw [dif_neg (by omega), hexponent']
  exact ⟨hleading', hfits', by omega, by omega⟩

/-- Shifting adds digits. -/
theorem log2_shiftLeft {m : Nat} (hm : m ≠ 0) (n : Nat) : (m <<< n).log2 = m.log2 + n := by
  induction n with
  | zero => rfl
  | succ n ih =>
    have hpos : m <<< n ≠ 0 := fun h => hm (by simpa using h)
    rw [Nat.shiftLeft_succ, Nat.log2_two_mul hpos, ih, Nat.add_assoc]

/-- A positive number is rounded to one with all digits of a significand. -/
theorem isNormal_round {m : Nat} {e low high : Int} (hm : 0 < m) (hleast : -1074 ≤ low)
    (hlow : low ≤ e + m.log2 - 52) (hhigh : e + m.log2 - 51 ≤ high) :
    IsNormal low high (UnpackedFloat.round Format.binary64 .positive m e) := by
  have htarget : Format.binary64.targetExponent (totalExponent m e) = e + m.log2 - 52 := by
    change max ((m.log2 : Int) + 1 + e - 53) (-1074) = _
    omega
  have hamount : (e - (e + m.log2 - 52)).toNat = 52 - m.log2 := by omega
  have hlog := log2_shiftLeft (Nat.ne_of_gt hm) (52 - m.log2)
  rw [UnpackedFloat.round, htarget]
  simp only [decreaseExponent, hamount]
  refine isNormal_roundWithAccuracy ((Nat.le_log2 fun h => ?_).mp ?_) hleast ?_ ?_ .exact
  · exact Nat.ne_of_gt hm (by simpa using h)
  · omega
  · omega
  · omega

/-- A positive whole number times a power of two is rounded to one with all digits. -/
theorem isNormal_normalize {m : Nat} {e low high : Int} (hm : 0 < m) (hleast : -1074 ≤ low)
    (hlow : low ≤ e + m.log2 - 52) (hhigh : e + m.log2 - 51 ≤ high) (zeroSign : Sign) :
    IsNormal low high (UnpackedFloat.normalize Format.binary64 (m : Int) e zeroSign) := by
  have hcompare : compare (m : Int) 0 = .gt := Int.compare_eq_gt.mpr (by omega)
  rw [UnpackedFloat.normalize, hcompare]
  exact isNormal_round hm hleast hlow hhigh

/-! ### Numbers and their bits -/

/-- A number with all digits of a significand is kept by its bits. -/
theorem unpack_pack {u : UnpackedFloat} (h : IsNormal (-1074) 971 u) :
    (Float.Model.pack u).unpack = u := by
  match u, h with
  | .finite .positive m e hpos, ⟨hm, hfits, hlow, hhigh⟩ =>
    have hlog : m.log2 = 52 := log2_significand hm hfits
    have hbits : UnpackedFloat.pack Format.binary64 (.finite .positive m e hpos) =
        packComponents Format.binary64 .positive (BitVec.ofNat 11 (e + 1075).toNat)
          (BitVec.ofNat 52 m) := by
      have hexponent : e + Format.binary64.exponentBias +
          Format.binary64.mantissaBitsWithoutImplicit = e + 1075 := by
        change e + 1023 + 52 = e + 1075
        omega
      rw [UnpackedFloat.pack, hexponent]
      change (if 2 ^ 11 ≤ (e + 1075).toNat + 1 then _ else if m.log2 + 1 = 53 then _ else _) = _
      rw [if_neg (by omega), if_pos (by omega)]
    have hexponent : (BitVec.ofNat 11 (e + 1075).toNat).toNat = (e + 1075).toNat := by
      rw [BitVec.toNat_ofNat, Nat.mod_eq_of_lt (by omega)]
    have hmantissa : (1#1 ++ BitVec.ofNat 52 m).toNat = m := by
      rw [toNat_one_append, BitVec.toNat_ofNat]
      omega
    change UnpackedFloat.unpack Format.binary64 (UnpackedFloat.pack Format.binary64 _) = _
    rw [hbits, UnpackedFloat.unpack]
    simp only [unpackMantissa_packComponents, unpackExponent_packComponents,
      unpackSign_packComponents]
    rw [if_neg, if_neg]
    · simp only [UnpackedFloat.finite.injEq]
      refine ⟨rfl, hmantissa, ?_⟩
      rw [hexponent]
      change ((e + 1075).toNat : Int) - (1023 + 52) = e
      omega
    · intro hzero
      have hnone := hexponent.symm.trans (congrArg BitVec.toNat hzero)
      change (e + 1075).toNat = 0 at hnone
      omega
    · intro hmax
      have hall := hexponent.symm.trans (congrArg BitVec.toNat hmax)
      change (e + 1075).toNat = 2047 at hall
      omega

/-! ### Quotients and sums -/

/-- The quotient of two positive numbers is positive, unless it is too small. -/
theorem isNormal_div {u v : UnpackedFloat} {low high low' high' : Int} (hu : IsNormal low high u)
    (hv : IsNormal low' high' v) (hleast : -1074 ≤ low - high' - 53) :
    IsNormal (low - high' - 53) (high - low' - 51) (UnpackedFloat.div Format.binary64 u v) := by
  match u, v, hu, hv with
  | .finite .positive m e _, .finite .positive m' e' hpos, ⟨hm, hfits, hlow, hhigh⟩,
    ⟨hm', hfits', hlow', hhigh'⟩ =>
    have hlog : m.log2 = 52 := log2_significand hm hfits
    have hlog' : m'.log2 = 52 := log2_significand hm' hfits'
    have htarget : min (e - e')
        (Format.binary64.targetExponent (totalExponent m e - totalExponent m' e')) =
          e - e' - 53 := by
      change min (e - e') (max ((m.log2 + 1 + e) - (m'.log2 + 1 + e') - 53) (-1074)) = _
      omega
    have hamount : (e - e' - (e - e' - 53)).toNat = 53 := by omega
    -- the quotient has one digit more than a significand at most
    have hquotient : 2 ^ 52 ≤ m <<< 53 / m' ∧ m <<< 53 / m' < 2 ^ 54 := by
      rw [Nat.le_div_iff_mul_le hpos, Nat.div_lt_iff_lt_mul hpos, Nat.shiftLeft_eq]
      omega
    have hlogLow : 52 ≤ (m <<< 53 / m').log2 := (Nat.le_log2 (by omega)).mpr hquotient.1
    have hlogHigh : (m <<< 53 / m').log2 < 54 := (Nat.log2_lt (by omega)).mpr hquotient.2
    simp only [UnpackedFloat.div, divCore, htarget, hamount]
    exact isNormal_roundWithAccuracy hquotient.1 hleast (by omega) (by omega) _

/-- A sum has one digit more than the summands at most. -/
theorem log2_add_bounds {a b n k : Nat} (hle : 2 ^ n ≤ a) (ha : a < 2 ^ k) (hb : b < 2 ^ k) :
    n ≤ (a + b).log2 ∧ (a + b).log2 < k + 1 := by
  have hpos : a + b ≠ 0 := by
    have := Nat.two_pow_pos n
    omega
  refine ⟨(Nat.le_log2 hpos).mpr (by omega), (Nat.log2_lt hpos).mpr ?_⟩
  rw [Nat.pow_succ]
  omega

/-- The sum of two positive numbers is positive. -/
theorem isNormal_add {u v : UnpackedFloat} {low high : Int} (hu : IsNormal low high u)
    (hv : IsNormal low high v) (hleast : -1074 ≤ low) :
    IsNormal low (high + 2) (UnpackedFloat.add Format.binary64 u v) := by
  match u, v, hu, hv with
  | .finite .positive m e _, .finite .positive m' e' _, ⟨hm, hfits, hlow, hhigh⟩,
    ⟨hm', hfits', hlow', hhigh'⟩ =>
    simp only [UnpackedFloat.add, decreaseExponent]
    have hlog : m.log2 = 52 := log2_significand hm hfits
    have hlog' : m'.log2 = 52 := log2_significand hm' hfits'
    -- brought to the lesser exponent, both have as many digits as their distance allows
    have hshifted {n k : Nat} (hn : n ≠ 0) (hlog : n.log2 = 52)
        (hk : k ≤ (max e e' - min e e').toNat) :
        n <<< k < 2 ^ (53 + (max e e' - min e e').toNat) := by
      rw [← Nat.log2_lt (fun h => hn (by simpa using h)), log2_shiftLeft hn]
      omega
    have hleft := @hshifted m (e - min e e').toNat (by omega) hlog (by omega)
    have hright := @hshifted m' (e' - min e e').toNat (by omega) hlog' (by omega)
    have hge : 2 ^ 52 ≤ m <<< (e - min e e').toNat := Nat.le_trans hm Nat.le_shiftLeft
    obtain ⟨hlogLow, hlogHigh⟩ := log2_add_bounds hge hleft hright
    exact isNormal_normalize (Nat.add_pos_left (Nat.lt_of_lt_of_le (by decide) hge) _) hleast
      (by omega) (by omega) .positive

/-! ### Doubles that are zero or above -/

/-- A double is plus zero, unless `p` holds: then it is positive and has all digits. -/
structure NormalIf (p : Prop) (low high : Int) (x : Float) : Prop where
  isNormal : p → IsNormal low high x.toModel.unpack
  isZero : ¬p → x.toModel.unpack = .zero .positive

/-- A range of exponents can be widened. -/
theorem NormalIf.mono {p : Prop} {x : Float} {low high low' high' : Int} (h : NormalIf p low high x)
    (hlow : low' ≤ low) (hhigh : high ≤ high') : NormalIf p low' high' x :=
  ⟨fun hp => (h.isNormal hp).mono hlow hhigh, h.isZero⟩

/-- Whether a double has all digits can be read off its parts. -/
theorem isNormal_of_ofFloat {x : Float} {m : Nat} {e : Int}
    (h : Binary.ofFloat x = .finite false m e) (hm : 2 ^ 52 ≤ m) (hfits : m < 2 ^ 53) :
    IsNormal e e x.toModel.unpack := by
  rw [Binary.ofFloat_eq] at h
  match x.toModel.unpack, h with
  | .zero _, h =>
    obtain ⟨-, rfl, -⟩ := Binary.finite.inj h
    omega
  | .finite .negative _ _ _, h => cases h
  | .finite .positive _ _ _, h =>
    obtain ⟨-, rfl, rfl⟩ := Binary.finite.inj h
    exact ⟨hm, hfits, Int.le_refl _, Int.le_refl _⟩

/-- Packing an exact result keeps it. -/
theorem NormalIf.of_pack {p : Prop} {x : Float} {u : UnpackedFloat} {low high : Int}
    (hx : x.toModel = .pack u) (hnormal : p → IsNormal low high u)
    (hzero : ¬p → u = .zero .positive) (hleast : -1074 ≤ low) (hmost : high ≤ 971) :
    NormalIf p low high x := by
  refine ⟨fun hp => ?_, fun hp => ?_⟩
  · rw [hx, unpack_pack ((hnormal hp).mono hleast hmost)]
    exact hnormal hp
  · rw [hx, hzero hp]
    rfl

/-- A double of that kind is above zero exactly if the condition holds. -/
theorem NormalIf.zero_lt_iff {p : Prop} {x : Float} {low high : Int} (h : NormalIf p low high x) :
    0.0 < x ↔ p := by
  rw [Binary.zero_lt_iff, Binary.ofFloat_eq]
  by_cases hp : p
  · match x.toModel.unpack, h.isNormal hp with
    | .finite .positive m e hm, _ => exact iff_of_true (.inr ⟨m, e, Nat.ne_of_gt hm, rfl⟩) hp
  · rw [h.isZero hp]
    simp [Binary.ofUnpacked, hp]

/-- Whole numbers of 64 bits are positive unless they are zero. -/
theorem normalIf_toFloat (n : UInt64) : NormalIf (n ≠ 0) (-52) 12 n.toFloat := by
  refine .of_pack (u := UnpackedFloat.ofUInt64 Format.binary64 n) rfl (fun h => ?_) (fun h => ?_)
    (by decide) (by decide)
  · have hpos : 0 < n.toNat := Nat.pos_of_ne_zero fun hzero => h (UInt64.toNat_inj.mp hzero)
    have hlt : n.toNat.log2 < 64 := (Nat.log2_lt (Nat.ne_of_gt hpos)).mpr n.toNat_lt
    exact isNormal_normalize hpos (by decide) (by omega) (by omega) .positive
  · obtain rfl := Decidable.not_not.mp h
    rfl

/-- A quotient is positive if the dividend is. -/
theorem NormalIf.div {p : Prop} {x y : Float} {low high low' high' : Int}
    (hx : NormalIf p low high x) (hy : IsNormal low' high' y.toModel.unpack)
    (hleast : -1074 ≤ low - high' - 53) (hmost : high - low' - 51 ≤ 971) :
    NormalIf p (low - high' - 53) (high - low' - 51) (x / y) := by
  refine .of_pack rfl (fun hp => isNormal_div (hx.isNormal hp) hy hleast) (fun hp => ?_) hleast
    hmost
  rw [hx.isZero hp]
  match y.toModel.unpack, hy with
  | .finite .positive _ _ _, _ => rfl

/-- A sum is positive if one of the summands is. -/
theorem NormalIf.add {p q : Prop} {x y : Float} {low high : Int} (hx : NormalIf p low high x)
    (hy : NormalIf q low high y) (hleast : -1074 ≤ low) (hmost : high + 2 ≤ 971) :
    NormalIf (p ∨ q) low (high + 2) (x + y) := by
  have hwiden {u : UnpackedFloat} (h : IsNormal low high u) : IsNormal low (high + 2) u :=
    h.mono (Int.le_refl _) (by omega)
  refine .of_pack rfl (fun hpq => ?_) (fun hpq => ?_) hleast hmost
  · by_cases hp : p
    · by_cases hq : q
      · exact isNormal_add (hx.isNormal hp) (hy.isNormal hq) hleast
      · rw [hy.isZero hq]
        match x.toModel.unpack, hx.isNormal hp with
        | .finite .positive _ _ _, h => exact hwiden h
    · rw [hx.isZero hp]
      match y.toModel.unpack, hy.isNormal (hpq.resolve_left hp) with
      | .finite .positive _ _ _, h => exact hwiden h
  · rw [hx.isZero fun hp => hpq (.inl hp), hy.isZero fun hq => hpq (.inr hq)]
    rfl

end Decimal

end QueryTelemetry
