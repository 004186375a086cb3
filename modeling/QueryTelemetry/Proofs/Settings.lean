import QueryTelemetry.Proofs.Durations
import QueryTelemetry.Settings

/-!
# Settings without a problem

`Settings.IsValid` lists what validation checks. `durations_of_validate` says which durations follow
from settings that pass: the seconds they give, rounded to nanoseconds, where a positive interval of
up to half a nanosecond becomes none at all.
-/

namespace QueryTelemetry

open Decimal

namespace Settings

/-- What the settings of a collector have to meet. -/
structure IsValid (s : Settings) : Prop where
  rate : s.textsPerHour.isFinite = true ∧ 0.0 < s.textsPerHour
  lifetime : ∃ d, Duration.ofSeconds? s.secondsPerText = some d
  isNumber : s.collectionInterval.isNaN = false
  interval : 0.0 < s.collectionInterval → ∃ d, Duration.ofSeconds? s.collectionInterval = some d
  textCacheSize : s.textCacheSize ≠ 0
  rowLimit : s.rowLimit ≠ 0
  view : isPlainName s.view = true

/-- Settings without a problem meet all of it. -/
theorem isValid_of_problem? {s : Settings} (h : s.problem? = none) : s.IsValid := by
  rw [problem?] at h
  split_ifs at h with hrate hlifetime hinterval hsize hlimit hview
  simp only [Bool.not_eq_true', Bool.and_eq_false_iff, decide_eq_false_iff_not, not_or,
    Bool.not_eq_false, not_not] at hrate
  rw [Option.isNone_iff_eq_none, ← ne_eq, Option.ne_none_iff_exists'] at hlifetime
  simp only [Bool.or_eq_true, Bool.and_eq_true, decide_eq_true_eq, Option.isNone_iff_eq_none,
    not_or, not_and, Bool.not_eq_true] at hinterval
  exact {
    rate := hrate
    lifetime := hlifetime
    isNumber := hinterval.1
    interval := fun hpos => Option.ne_none_iff_exists'.mp (hinterval.2 hpos)
    textCacheSize := hsize
    rowLimit := hlimit
    view := by simpa using hview }

theorem isValid_of_validate {s : Settings} (h : s.validate = .ok ()) : s.IsValid := by
  rw [validate] at h
  split at h
  · cases h
  · exact isValid_of_problem? ‹_›

namespace IsValid

variable {s : Settings}

/-- A positive number of seconds between cycles is rounded to nanoseconds. -/
theorem exists_seconds (h : s.IsValid) (hpos : 0.0 < s.collectionInterval) :
    ∃ seconds, (Binary.ofFloat s.collectionInterval).value? = some seconds ∧ 0 < seconds ∧
      IsNearest s.interval.nanoseconds (seconds * 1000000000) := by
  obtain ⟨d, hd⟩ := h.interval hpos
  obtain ⟨seconds, hvalue, -, hnear⟩ := Duration.exists_value_of_ofSeconds? hd
  refine ⟨seconds, hvalue, (Binary.zero_lt_iff_value_pos hvalue).mp hpos, ?_⟩
  rwa [Settings.interval, if_pos hpos, hd]

/-- Cycles follow each other at once if half a nanosecond or less is between them. -/
theorem interval_eq_zero_iff (h : s.IsValid) :
    s.interval.nanoseconds = 0 ↔
      ∃ seconds, (Binary.ofFloat s.collectionInterval).value? = some seconds ∧ 0 < seconds ∧
        seconds * 1000000000 ≤ 1 / 2 := by
  by_cases hpos : 0.0 < s.collectionInterval
  · obtain ⟨seconds, hvalue, hseconds, hnear⟩ := h.exists_seconds hpos
    rw [hnear.eq_zero_iff]
    refine ⟨fun hle => ⟨seconds, hvalue, hseconds, hle⟩, ?_⟩
    rintro ⟨seconds', hvalue', -, hle⟩
    rwa [Option.some.inj (hvalue.symm.trans hvalue')]
  · rw [Settings.interval, if_neg hpos]
    refine iff_of_false (by decide) ?_
    rintro ⟨seconds, hvalue, hseconds, -⟩
    exact hpos ((Binary.zero_lt_iff_value_pos hvalue).mpr hseconds)

/-- The seconds between two full texts are rounded to nanoseconds. -/
theorem exists_textLifetime (h : s.IsValid) :
    ∃ seconds, (Binary.ofFloat s.secondsPerText).value? = some seconds ∧
      IsNearest s.textLifetime.nanoseconds (seconds * 1000000000) ∧
        s.textLifetime ≠ Duration.longest := by
  obtain ⟨d, hd⟩ := h.lifetime
  obtain ⟨seconds, hvalue, -, hnear⟩ := Duration.exists_value_of_ofSeconds? hd
  rw [textLifetime, hd]
  exact ⟨seconds, hvalue, hnear, Duration.ne_longest_of_ofSeconds? hd⟩

end IsValid

/-- **Durations of valid settings.** The default is between the cycles if the setting is not above
zero. Otherwise it is the nearest whole number of nanoseconds, which is none exactly for settings of
up to half a nanosecond; what the events say of it is zero in the same cases. The lifetime of full
texts is the nearest whole number of nanoseconds too, and never the longest duration. -/
theorem durations_of_validate {s : Settings} (h : s.validate = .ok ()) :
    (¬0.0 < s.collectionInterval → s.interval = defaultInterval) ∧
      (0.0 < s.collectionInterval →
        ∃ seconds, (Binary.ofFloat s.collectionInterval).value? = some seconds ∧ 0 < seconds ∧
          IsNearest s.interval.nanoseconds (seconds * 1000000000)) ∧
      (s.interval.nanoseconds = 0 ↔
        ∃ seconds, (Binary.ofFloat s.collectionInterval).value? = some seconds ∧ 0 < seconds ∧
          seconds * 1000000000 ≤ 1 / 2) ∧
      (0.0 < s.interval.toSeconds ↔ 0 < s.interval.nanoseconds) ∧
      ∃ seconds, (Binary.ofFloat s.secondsPerText).value? = some seconds ∧
        IsNearest s.textLifetime.nanoseconds (seconds * 1000000000) ∧
          s.textLifetime ≠ Duration.longest := by
  have hvalid := isValid_of_validate h
  exact ⟨fun hnot => if_neg hnot, hvalid.exists_seconds, hvalid.interval_eq_zero_iff,
    s.interval.zero_lt_toSeconds_iff, hvalid.exists_textLifetime⟩

/-- The default settings pass, and their durations are the nearest to what they say. -/
theorem durations_of_validate_default :
    default.validate = .ok () ∧ 0.0 < default.collectionInterval ∧
      ∃ seconds, (Binary.ofFloat default.collectionInterval).value? = some seconds ∧ 0 < seconds ∧
        IsNearest default.interval.nanoseconds (seconds * 1000000000) := by
  have hproblem : default.problem? = none := Option.isNone_iff_eq_none.mp (by decide +kernel)
  have hvalid : default.validate = .ok () := by rw [validate, hproblem]
  have hpos : 0.0 < default.collectionInterval := by decide +kernel
  exact ⟨hvalid, hpos, (durations_of_validate hvalid).2.1 hpos⟩

/-- Settings with a tenth of a nanosecond between cycles. -/
def hasty : Settings := { default with collectionInterval := 1e-10 }

/-- A tenth of a nanosecond is above zero and passes, but nothing is between the cycles. -/
theorem interval_eq_zero_of_hasty :
    hasty.validate = .ok () ∧ 0.0 < hasty.collectionInterval ∧ hasty.interval.nanoseconds = 0 ∧
      ¬0.0 < hasty.interval.toSeconds := by
  have hproblem : hasty.problem? = none := Option.isNone_iff_eq_none.mp (by decide +kernel)
  exact ⟨by rw [validate, hproblem], by decide +kernel, by decide +kernel, by decide +kernel⟩

end Settings

end QueryTelemetry
