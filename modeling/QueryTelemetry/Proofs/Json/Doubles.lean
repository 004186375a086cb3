import QueryTelemetry.Proofs.Json.Numbers

/-!
# Doubles in a JSON text

A finite double is written as a proper number with a point or an exponent
(`exists_number_of_finite`), so it can be read back and is never taken for a whole number.
-/

namespace QueryTelemetry

namespace Decimal

/-! ### Digits of the shortest decimal -/

/-- The interval of a positive double does not reach down to zero. -/
theorem low_around_pos {significand : Nat} (exponent : Int) (h : 0 < significand) :
    0 < (Interval.around significand exponent).low := by
  simp only [Interval.around]
  split <;> omega

theorem commonScale_fst_pos (unit place : Int) : 0 < (Interval.commonScale unit place).1 :=
  Nat.mul_pos (Nat.pow_pos (by decide)) (Nat.pow_pos (by decide))

/-- On a grid only a positive point stands for a positive double. -/
theorem pointOnGrid?_pos {tie : Tie} {i : Interval} {place : Int} {point : Nat} (hlow : 0 < i.low)
    (h : i.pointOnGrid? tie place = some point) : 0 < point := by
  have hscale := commonScale_fst_pos i.unit place
  have hend : 0 < i.low * (Interval.commonScale i.unit place).1 := Nat.mul_pos hlow hscale
  simp only [Interval.pointOnGrid?] at h
  generalize (Interval.commonScale i.unit place).1 = binary at h hend
  generalize (Interval.commonScale i.unit place).2 = decimal at h
  generalize i.mid * binary / decimal = below at h
  refine Nat.pos_of_ne_zero ?_
  rintro rfl
  rcases Nat.eq_zero_or_pos below with rfl | hbelow
  · -- zero lies outside the interval
    have hclosed : ¬ i.low * binary ≤ 0 := by omega
    have hopen : ¬ i.low * binary < 0 := by omega
    simp only [Nat.zero_mul, hclosed, hopen, decide_false, Bool.false_and, ite_self] at h
    split at h
    · rename_i hinside _
      cases hinside
    · simp at h
    · cases h
    · rename_i hinside _
      cases hinside
  · split at h
    · simp only [Option.some.injEq] at h
      omega
    · simp at h
    · cases h
    · repeat' split at h
      all_goals
        simp only [Option.some.injEq] at h
        omega

theorem search_pos {tie : Tie} {significand : Nat} {exponent : Int} (hpos : 0 < significand)
    (grids : Nat) (place : Int) :
    0 < ((Interval.around significand exponent).search tie grids place).coefficient := by
  induction grids generalizing place with
  | zero => exact Nat.one_pos
  | succ grids ih =>
    rw [Interval.search]
    split
    · rename_i point hpoint
      exact pointOnGrid?_pos (low_around_pos exponent hpos) hpoint
    · exact ih (place - 1)

/-- The digits of a positive coefficient do not begin with a zero. -/
theorem isDigits_digitsAndPower {s : Scaled} (h : 0 < s.coefficient) :
    IsDigits (Layout.digitsAndPower s).1 ∧ (Layout.digitsAndPower s).1.head? ≠ some '0' := by
  have hdigits := isDigits_toDigits s.coefficient
  have hzero := head?_toDigits_ne h
  simp only [Layout.digitsAndPower]
  cases hwritten : Nat.toDigits 10 s.coefficient with
  | nil => exact absurd hwritten hdigits.1
  | cons d more =>
    rw [hwritten] at hdigits hzero
    have hd : (d == '0') = false := by simpa using hzero
    -- only zeros behind the first digit are taken away
    obtain ⟨kept, hkept, hsubset⟩ : ∃ kept, ((d :: more).reverse.dropWhile (· == '0')).reverse =
        d :: kept ∧ ∀ c ∈ kept, c ∈ more := by
      refine ⟨(more.reverse.dropWhile (· == '0')).reverse, ?_, fun c hc => ?_⟩
      · rw [List.reverse_cons, List.dropWhile_append]
        split
        · rename_i hnothing
          rw [List.isEmpty_iff.mp hnothing, List.dropWhile_cons_of_neg (by simp [hd])]
          rfl
        · rw [List.reverse_append]
          rfl
      · have hmem := (List.dropWhile_suffix (· == '0')).subset (List.mem_reverse.mp hc)
        exact List.mem_reverse.mp hmem
    rw [hkept]
    refine ⟨⟨by simp, fun c hc => hdigits.2 c ?_⟩, by simpa using hzero⟩
    have hc : c ∈ d :: kept := by simpa using hc
    rcases List.mem_cons.mp hc with rfl | hc
    · exact List.mem_cons_self
    · exact List.mem_cons_of_mem d (hsubset c hc)

end Decimal

namespace Json

open Decimal

/-! ### Doubles as numbers -/

/-- The digits of a double do not begin with a zero, unless they are those of zero. -/
structure AreDigitsOf (digits : List Char) (power : Int) : Prop where
  isDigits : IsDigits digits
  zero : digits.head? = some '0' → digits = ['0'] ∧ power = 0

theorem isDigits_zero : IsDigits ['0'] := by
  refine ⟨List.cons_ne_nil _ _, fun c hc => ?_⟩
  rw [List.mem_singleton.mp hc]
  rfl

theorem isDigits_replicate_append {digits : List Char} (h : IsDigits digits) (zeros : Nat) :
    IsDigits (List.replicate zeros '0' ++ digits) := by
  refine ⟨by simp [h.1], fun c hc => ?_⟩
  rcases List.mem_append.mp hc with hc | hc
  · rw [List.eq_of_mem_replicate hc]
    rfl
  · exact h.2 c hc

theorem isDigits_append_replicate {digits : List Char} (h : IsDigits digits) (zeros : Nat) :
    IsDigits (digits ++ List.replicate zeros '0') := by
  refine ⟨by simp [h.1], fun c hc => ?_⟩
  rcases List.mem_append.mp hc with hc | hc
  · exact h.2 c hc
  · rw [List.eq_of_mem_replicate hc]
    rfl

/-- A number without an exponent is proper if the digits on both sides of the point are. -/
theorem isProper_of_point {negative : Bool} {whole fraction : List Char}
    (hwhole : whole = ['0'] ∨ IsDigits whole ∧ whole.head? ≠ some '0')
    (hfraction : IsDigits fraction) :
    NumberText.IsProper ⟨negative, whole, some fraction, none⟩ := by
  refine ⟨hwhole, fun digits h => ?_, fun _ _ h => (nomatch h)⟩
  obtain rfl := Option.some.inj h
  exact hfraction

/-- Without an exponent a double is a proper number with a point. -/
theorem exists_number_of_positional (negative : Bool) {digits : List Char} {power : Int}
    (h : AreDigitsOf digits power) :
    ∃ n : NumberText, n.negative = negative ∧ n.IsProper ∧ n.isWhole = false ∧
      n.writeMagnitude = Layout.writePositional true digits power := by
  unfold Layout.writePositional
  split
  · have hfraction := isDigits_replicate_append h.isDigits ((-power).toNat - 1)
    refine ⟨⟨negative, ['0'], some _, none⟩, rfl, isProper_of_point (.inl rfl) hfraction, rfl, ?_⟩
    simp [NumberText.writeMagnitude, NumberText.writeFraction, NumberText.writeExponent]
  · by_cases hzero : digits.head? = some '0'
    · obtain ⟨rfl, rfl⟩ := h.zero hzero
      exact ⟨⟨negative, ['0'], some ['0'], none⟩, rfl,
        isProper_of_point (.inl rfl) isDigits_zero, rfl, rfl⟩
    · by_cases hshort : digits.length ≤ power.toNat + 1
      · have hwhole := isDigits_append_replicate h.isDigits (power.toNat + 1 - digits.length)
        have hhead : (digits ++ List.replicate (power.toNat + 1 - digits.length) '0').head? ≠
            some '0' := by
          obtain ⟨d, more, rfl⟩ := List.exists_cons_of_ne_nil h.isDigits.1
          exact hzero
        refine ⟨⟨negative, _, some ['0'], none⟩, rfl,
          isProper_of_point (.inr ⟨hwhole, hhead⟩) isDigits_zero, rfl, ?_⟩
        simp [NumberText.writeMagnitude, NumberText.writeFraction, NumberText.writeExponent, hshort]
      · obtain ⟨d, more, rfl⟩ := List.exists_cons_of_ne_nil h.isDigits.1
        have hwhole : IsDigits ((d :: more).take (power.toNat + 1)) :=
          ⟨List.cons_ne_nil _ _, fun c hc => h.isDigits.2 c (List.mem_of_mem_take hc)⟩
        have hfraction : IsDigits ((d :: more).drop (power.toNat + 1)) := by
          refine ⟨?_, fun c hc => h.isDigits.2 c (List.mem_of_mem_drop hc)⟩
          rw [← List.length_pos_iff, List.length_drop]
          omega
        refine ⟨⟨negative, _, some _, none⟩, rfl,
          isProper_of_point (.inr ⟨hwhole, hzero⟩) hfraction, rfl, ?_⟩
        rw [if_neg hshort]
        simp [NumberText.writeMagnitude, NumberText.writeFraction, NumberText.writeExponent]

/-- With an exponent a double is a proper number. -/
theorem exists_number_of_scientific (negative : Bool) {digits : List Char} {power : Int}
    (h : AreDigitsOf digits power) :
    ∃ n : NumberText, n.negative = negative ∧ n.IsProper ∧ n.isWhole = false ∧
      n.writeMagnitude = Layout.writeScientific digits power := by
  have hpower := isDigits_toDigits power.natAbs
  have hsign : (decide (power < 0) = true) = (power < 0) := decide_eq_true_eq
  match hdigits : digits with
  | [] => exact absurd rfl h.isDigits.1
  | [d] =>
    refine ⟨⟨negative, [d], none, some (decide (power < 0), Nat.toDigits 10 power.natAbs)⟩, rfl,
      ⟨?_, fun _ hnone => (nomatch hnone), fun _ _ hsome => ?_⟩, rfl, ?_⟩
    · by_cases hd : d = '0'
      · exact .inl (by rw [hd])
      · exact .inr ⟨h.isDigits, by simpa using hd⟩
    · obtain ⟨-, rfl⟩ := by simpa using hsome
      exact hpower
    · simp [NumberText.writeMagnitude, NumberText.writeFraction, NumberText.writeExponent,
        Layout.writeScientific]
  | d :: e :: more =>
    have hd : d ≠ '0' := by
      rintro rfl
      cases (h.zero rfl).1
    refine ⟨⟨negative, [d], some (e :: more),
      some (decide (power < 0), Nat.toDigits 10 power.natAbs)⟩, rfl,
      ⟨.inr ⟨⟨List.cons_ne_nil _ _, fun c hc => ?_⟩, by simpa using hd⟩, fun _ hsome => ?_,
        fun _ _ hsome => ?_⟩, rfl, ?_⟩
    · rw [List.mem_singleton.mp hc]
      exact h.isDigits.2 d List.mem_cons_self
    · obtain rfl := Option.some.inj hsome
      exact ⟨List.cons_ne_nil _ _, fun c hc => h.isDigits.2 c (List.mem_cons_of_mem d hc)⟩
    · obtain ⟨-, rfl⟩ := by simpa using hsome
      exact hpower
    · simp [NumberText.writeMagnitude, NumberText.writeFraction, NumberText.writeExponent,
        Layout.writeScientific]

/-- The digits that a finite double is written with. -/
theorem areDigitsOf_double (tie : Tie) (significand : Nat) (exponent : Int) {digits : List Char}
    {power : Int}
    (h : (if significand = 0 then (['0'], 0)
      else Layout.digitsAndPower (shortest tie significand exponent)) = (digits, power)) :
    AreDigitsOf digits power := by
  split at h
  · obtain ⟨rfl, rfl⟩ := Prod.mk.inj h
    exact ⟨isDigits_zero, fun _ => ⟨rfl, rfl⟩⟩
  · rename_i hsignificand
    have hpos : 0 < (shortest tie significand exponent).coefficient :=
      search_pos (Nat.pos_of_ne_zero hsignificand) _ _
    obtain ⟨hdigits, hhead⟩ := isDigits_digitsAndPower hpos
    rw [h] at hdigits hhead
    exact ⟨hdigits, fun hzero => absurd hzero hhead⟩

/-- A finite double is written as a proper number with a point or an exponent. -/
theorem exists_number_of_finite {x : Float} {negative : Bool} {significand : Nat} {exponent : Int}
    (h : Binary.ofFloat x = .finite negative significand exponent) :
    ∃ n : NumberText, n.IsProper ∧ n.isWhole = false ∧
      (Layout.event.write x).toList = n.write := by
  have hdigits := @areDigitsOf_double Layout.event.tie significand exponent
  simp only [Layout.write, h, String.toList_ofList]
  generalize (if significand = 0 then ((['0'], 0) : List Char × Int) else
    Layout.digitsAndPower (shortest Layout.event.tie significand exponent)) = found at hdigits
  obtain ⟨digits, power⟩ := found
  have hare : AreDigitsOf digits power := hdigits rfl
  have hwritten : ∃ n : NumberText, n.negative = negative ∧ n.IsProper ∧ n.isWhole = false ∧
      n.writeMagnitude = if Layout.event.positional power = true then
        Layout.writePositional Layout.event.pointZero digits power
      else Layout.writeScientific digits power := by
    split
    · exact exists_number_of_positional negative hare
    · exact exists_number_of_scientific negative hare
  obtain ⟨n, rfl, hproper, hwhole, hmagnitude⟩ := hwritten
  exact ⟨n, hproper, hwhole, by rw [NumberText.write, hmagnitude]⟩

/-- A double is written as `null`, or as a proper number with a point or an exponent. -/
theorem writeDouble_cases (x : Float) :
    writeDouble x = "null".toList ∨
      ∃ n : NumberText, n.IsProper ∧ n.isWhole = false ∧ writeDouble x = n.write := by
  unfold writeDouble
  split
  · rename_i hfinite
    exact .inr (exists_number_of_finite hfinite)
  · exact .inl rfl

end Json

end QueryTelemetry
