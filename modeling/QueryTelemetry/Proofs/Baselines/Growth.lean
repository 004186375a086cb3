import QueryTelemetry.Proofs.Baselines.Natural

/-!
# What a cycle reports and remembers

A cycle remembers the totals of each key (`entries_advance`). What it reports of a key depends on
these totals and on those that were remembered for the key, and `IsReport` describes it counter by
counter. As long as all counters are natural numbers, so are the reported ones, and they are the
differences to what was remembered or, after a restart, the totals (`IsReport.amounts`).
-/

namespace QueryTelemetry

namespace Metrics

variable {totals old : Metrics}

/-- The totals can be compared if there are the same counters. -/
theorem sameMetrics_iff :
    totals.sameMetrics old = true ↔
      ∀ metric, (totals.get? metric).isSome = (old.get? metric).isSome := by
  rw [sameMetrics, beq_iff_eq]
  constructor
  · intro h metric
    rw [Bool.eq_iff_iff, ← mem_present, ← mem_present, h]
  · intro h
    exact congrArg (Metric.all.toList.filter ·) (funext h)

/-- Some counter is less than it was. -/
def HasFallen (totals old : Metrics) : Prop :=
  ∃ metric now before, totals.get? metric = some now ∧ old.get? metric = some before ∧
    now.isLess before = true

theorem hasFallen_iff : totals.hasFallen old = true ↔ HasFallen totals old := by
  rw [hasFallen, List.any_eq_true]
  constructor
  · rintro ⟨metric, -, h⟩
    split at h
    · exact ⟨metric, _, _, ‹_›, ‹_›, h⟩
    · cases h
  · rintro ⟨metric, now, before, hnow, hbefore, hless⟩
    refine ⟨metric, mem_present.mpr (by rw [hnow]; rfl), ?_⟩
    rw [hnow, hbefore]
    exact hless

/-- Natural totals with the same counters have fallen if one of their amounts has gone down. -/
theorem hasFallen_iff_amount_lt (htotals : totals.IsNatural) (hold : old.IsNatural)
    (hsame : totals.sameMetrics old = true) :
    totals.HasFallen old ↔ ∃ metric, totals.amount metric < old.amount metric := by
  refine exists_congr fun metric => ?_
  have hcounters := sameMetrics_iff.mp hsame metric
  constructor
  · rintro ⟨now, before, hnow, hbefore, hless⟩
    rw [Counter.isLess_of_isNatural (htotals _ _ hnow) (hold _ _ hbefore)] at hless
    rw [amount_of_get? hnow, amount_of_get? hbefore]
    exact of_decide_eq_true hless
  · intro hlt
    cases hbefore : old.get? metric with
    | none =>
      -- without a value on either side both amounts are zero
      rw [hbefore, Option.isSome_none, Option.isSome_eq_false_iff, Option.isNone_iff_eq_none]
        at hcounters
      rw [amount_of_get?_eq_none hcounters, amount_of_get?_eq_none hbefore] at hlt
      exact absurd hlt (Int.lt_irrefl 0)
    | some before =>
      rw [hbefore] at hcounters
      obtain ⟨now, hnow⟩ := Option.isSome_iff_exists.mp hcounters
      rw [amount_of_get? hnow, amount_of_get? hbefore] at hlt
      refine ⟨now, before, hnow, rfl, ?_⟩
      rw [Counter.isLess_of_isNatural (htotals _ _ hnow) (hold _ _ hbefore)]
      exact decide_eq_true hlt

/-- Where everything is zero, each amount is. -/
theorem amount_of_allZero {m : Metrics} {watched : List Metric} (h : m.allZero watched = true)
    {metric : Metric} (hwatched : metric ∈ watched) : m.amount metric = 0 := by
  have hzero := List.all_eq_true.mp h metric hwatched
  cases hvalue : m.get? metric with
  | none => exact amount_of_get?_eq_none hvalue
  | some value =>
    rw [hvalue] at hzero
    exact (amount_of_get? hvalue).trans (Counter.toInt_of_isZero hzero)

theorem allZero_eq_false_iff {m : Metrics} {watched : List Metric} :
    m.allZero watched = false ↔
      ∃ metric ∈ watched, ∃ value, m.get? metric = some value ∧ value.isZero = false := by
  rw [allZero, List.all_eq_false]
  refine exists_congr fun metric => and_congr_right fun _ => ?_
  cases m.get? metric with
  | none => simp
  | some value => simp

end Metrics

namespace Baselines

variable {κ ρ : Type} [DecidableEq κ] [HasMetrics ρ]

/-! ### Reports -/

/-- What is reported of rows that begin with `first`, when their totals are compared with the old
ones: apart from its watched counters, the first row. The watched counters are the growth, or the
totals if one of them has fallen. Some of them are not zero. -/
structure IsReport (watched : List Metric) (old totals : Metrics) (first report : ρ) : Prop where
  same_counters : ∀ metric, (totals.get? metric).isSome = (old.get? metric).isSome
  same_row : report = HasMetrics.withMetrics first (HasMetrics.metrics report)
  of_unwatched : ∀ metric, metric ∉ watched →
    (HasMetrics.metrics report).get? metric = (HasMetrics.metrics first).get? metric
  of_fallen : totals.HasFallen old → ∀ metric ∈ watched,
    (HasMetrics.metrics report).get? metric = totals.get? metric
  of_grown : ¬ totals.HasFallen old → ∀ metric ∈ watched,
    (HasMetrics.metrics report).get? metric =
      (totals.get? metric).bind fun now => (old.get? metric).map fun before => now.growth before
  not_zero : ∃ metric ∈ watched, ∃ value,
    (HasMetrics.metrics report).get? metric = some value ∧ value.isZero = false

/-- The counters that are reported of rows that begin with `first`. -/
def reportedMetrics (watched : List Metric) (old totals : Metrics) (first : ρ) : Metrics :=
  .ofFn fun metric =>
    if metric ∈ watched then
      if totals.hasFallen old then totals.get? metric
      else
        (totals.get? metric).bind fun now => (old.get? metric).map fun before => now.growth before
    else (HasMetrics.metrics first).get? metric

theorem get?_reportedMetrics_of_unwatched {watched : List Metric} {old totals : Metrics}
    {first : ρ} {metric : Metric} (h : metric ∉ watched) :
    (reportedMetrics watched old totals first).get? metric =
      (HasMetrics.metrics first).get? metric := by
  rw [reportedMetrics, Metrics.get?_ofFn, if_neg h]

theorem get?_reportedMetrics_of_fallen {watched : List Metric} {old totals : Metrics} {first : ρ}
    {metric : Metric} (h : metric ∈ watched) (hfallen : totals.HasFallen old) :
    (reportedMetrics watched old totals first).get? metric = totals.get? metric := by
  rw [reportedMetrics, Metrics.get?_ofFn, if_pos h, if_pos (Metrics.hasFallen_iff.mpr hfallen)]

theorem get?_reportedMetrics_of_grown {watched : List Metric} {old totals : Metrics} {first : ρ}
    {metric : Metric} (h : metric ∈ watched) (hgrown : ¬ totals.HasFallen old) :
    (reportedMetrics watched old totals first).get? metric =
      (totals.get? metric).bind fun now =>
        (old.get? metric).map fun before => now.growth before := by
  rw [reportedMetrics, Metrics.get?_ofFn, if_pos h,
    if_neg fun fallen => hgrown (Metrics.hasFallen_iff.mp fallen)]

/-- A report is known by its counters. -/
theorem isReport_iff {watched : List Metric} {old totals : Metrics} {first report : ρ} :
    IsReport watched old totals first report ↔
      totals.sameMetrics old = true ∧
        report = HasMetrics.withMetrics first (reportedMetrics watched old totals first) ∧
        (HasMetrics.metrics report).allZero watched = false := by
  rw [Metrics.sameMetrics_iff, Metrics.allZero_eq_false_iff]
  constructor
  · intro h
    have hmetrics : HasMetrics.metrics report = reportedMetrics watched old totals first := by
      refine Metrics.ext_get? fun metric => ?_
      by_cases hwatched : metric ∈ watched
      · by_cases hfallen : totals.HasFallen old
        · rw [get?_reportedMetrics_of_fallen hwatched hfallen]
          exact h.of_fallen hfallen metric hwatched
        · rw [get?_reportedMetrics_of_grown hwatched hfallen]
          exact h.of_grown hfallen metric hwatched
      · rw [get?_reportedMetrics_of_unwatched hwatched]
        exact h.of_unwatched metric hwatched
    exact ⟨h.same_counters, hmetrics ▸ h.same_row, h.not_zero⟩
  · rintro ⟨hsame, rfl, hzero⟩
    rw [HasMetrics.metrics_withMetrics] at hzero
    refine ⟨hsame, ?_, ?_, ?_, ?_, ?_⟩ <;> rw [HasMetrics.metrics_withMetrics]
    · exact fun metric hwatched => get?_reportedMetrics_of_unwatched hwatched
    · exact fun hfallen metric hwatched => get?_reportedMetrics_of_fallen hwatched hfallen
    · exact fun hgrown metric hwatched => get?_reportedMetrics_of_grown hwatched hgrown
    · exact hzero

/-- The counters of a combined row are turned into the reported ones. -/
theorem since?_combine (watched : List Metric) (first : ρ) (rows : List ρ) (old : Metrics) :
    (HasMetrics.metrics (combine watched first rows)).since? (totals watched rows) old =
      if (totals watched rows).sameMetrics old then
        some (reportedMetrics watched old (totals watched rows) first)
      else none := by
  rw [Metrics.since?]
  by_cases hsame : (totals watched rows).sameMetrics old = true
  · rw [if_pos hsame, if_pos hsame]
    refine congrArg some (Metrics.ext_get? fun metric => ?_)
    rw [reportedMetrics, Metrics.get?_ofFn]
    have hcounters := Metrics.sameMetrics_iff.mp hsame metric
    split
    · rw [get?_metrics_combine, get?_totals]
      split <;> rfl
    · rw [Metrics.replaceByGrowth, Metrics.get?_ofFn, get?_metrics_combine]
      rw [get?_totals] at hcounters ⊢
      by_cases hwatched : metric ∈ watched
      · simp only [if_pos hwatched] at hcounters ⊢
        -- the old counters have a value exactly where the totals have one
        cases hnow : total? metric rows <;> cases hbefore : old.get? metric <;>
          simp [hnow, hbefore] at hcounters ⊢
      · simp only [if_neg hwatched]
  · rw [if_neg hsame, if_neg hsame]

/-- What is reported of a combined row. -/
theorem report?_combine (watched : List Metric) (b : Baselines κ) (k : κ) (first row : ρ)
    (rows : List ρ) :
    report? watched b k (combine watched first rows) = some row ↔
      ∃ old, b.get? k = some old ∧ IsReport watched old (totals watched rows) first row := by
  rw [report?, restrict_metrics_combine]
  simp only [since?_combine, isReport_iff]
  cases b.get? k with
  | none => simp
  | some old =>
    by_cases hsame : (totals watched rows).sameMetrics old = true
    · have hrow : HasMetrics.withMetrics (combine watched first rows)
          (reportedMetrics watched old (totals watched rows) first) =
          HasMetrics.withMetrics first
            (reportedMetrics watched old (totals watched rows) first) := by
        rw [combine, HasMetrics.withMetrics_withMetrics]
      simp only [Option.bind_eq_bind, Option.bind_some, if_pos hsame, hrow]
      constructor
      · intro h
        split at h
        · cases h
        · obtain rfl := Option.some.inj h
          refine ⟨old, rfl, hsame, rfl, ?_⟩
          rw [HasMetrics.metrics_withMetrics]
          exact Bool.eq_false_iff.mpr ‹_›
      · rintro ⟨_, ⟨⟩, -, rfl, hzero⟩
        rw [HasMetrics.metrics_withMetrics] at hzero
        rw [hzero]
        rfl
    · simp [hsame]

/-! ### A cycle -/

omit [HasMetrics ρ] in
/-- A key that comes up has a first row. -/
theorem exists_head?_rowsWith {key : ρ → κ} {rows : List ρ} {k : κ}
    (h : k ∈ distinctKeys key rows) : ∃ first, (rowsWith key k rows).head? = some first := by
  obtain ⟨row, hrow, hkey⟩ := mem_distinctKeys.mp h
  have hmem : row ∈ rowsWith key k rows := mem_rowsWith.mpr ⟨hrow, hkey⟩
  exact ⟨_, List.head?_eq_some_head (List.ne_nil_of_mem hmem)⟩

/-- The totals of each key are remembered, whatever was remembered before. -/
theorem entries_advance (watched : List Metric) (key : ρ → κ) (rows : List ρ) (b : Baselines κ) :
    (b.advance watched key rows).2.entries =
      (distinctKeys key rows).map fun k => (k, totals watched (rowsWith key k rows)) := by
  have hentries : (b.advance watched key rows).2.entries =
      (merge watched key rows).map fun entry =>
        (entry.1, (HasMetrics.metrics entry.2).restrict watched) := rfl
  rw [hentries, merge_eq, List.map_filterMap, ← List.filterMap_eq_map]
  refine List.filterMap_congr fun k hk => ?_
  obtain ⟨first, hfirst⟩ := exists_head?_rowsWith hk
  rw [hfirst, Option.map_some, Option.map_some, restrict_metrics_combine]
  rfl

/-- What a cycle reports of a key. -/
def reportOf? (watched : List Metric) (key : ρ → κ) (rows : List ρ) (b : Baselines κ) (k : κ) :
    Option ρ :=
  (rowsWith key k rows).head?.bind fun first =>
    report? watched b k (combine watched first (rowsWith key k rows))

theorem reportOf?_eq_some_iff {watched : List Metric} {key : ρ → κ} {rows : List ρ}
    {b : Baselines κ} {k : κ} {row : ρ} :
    reportOf? watched key rows b k = some row ↔
      ∃ old first, b.get? k = some old ∧ (rowsWith key k rows).head? = some first ∧
        IsReport watched old (totals watched (rowsWith key k rows)) first row := by
  rw [reportOf?, Option.bind_eq_some_iff]
  simp only [report?_combine]
  constructor
  · rintro ⟨first, hfirst, old, hold, hreport⟩
    exact ⟨old, first, hold, hfirst, hreport⟩
  · rintro ⟨old, first, hold, hfirst, hreport⟩
    exact ⟨first, hfirst, old, hold, hreport⟩

/-- The reports stand in the order of the keys. -/
theorem reports_advance (watched : List Metric) (key : ρ → κ) (rows : List ρ) (b : Baselines κ) :
    (b.advance watched key rows).1 =
      (distinctKeys key rows).filterMap (reportOf? watched key rows b) := by
  have hreports : (b.advance watched key rows).1 =
      (merge watched key rows).filterMap fun entry => report? watched b entry.1 entry.2 := rfl
  rw [hreports, merge_eq, List.filterMap_filterMap]
  refine List.filterMap_congr fun k _ => ?_
  rw [Option.bind_map]
  rfl

/-! ### Natural counters -/

section

variable {watched : List Metric} {totals old : Metrics} {first report : ρ} {metric : Metric}

theorem amount_reportedMetrics_of_fallen (hwatched : metric ∈ watched)
    (hfallen : totals.HasFallen old) :
    (reportedMetrics watched old totals first).amount metric = totals.amount metric := by
  rw [Metrics.amount, get?_reportedMetrics_of_fallen hwatched hfallen, Metrics.amount]

/-- Natural counters that have not fallen are reported as differences. -/
theorem amount_reportedMetrics_of_grown (htotals : totals.IsNatural) (hold : old.IsNatural)
    (hsame : totals.sameMetrics old = true) (hwatched : metric ∈ watched)
    (hgrown : ¬ totals.HasFallen old) :
    (reportedMetrics watched old totals first).amount metric =
      totals.amount metric - old.amount metric := by
  have hreported : (reportedMetrics watched old totals first).get? metric = _ :=
    get?_reportedMetrics_of_grown hwatched hgrown
  have hcounters := Metrics.sameMetrics_iff.mp hsame metric
  cases hbefore : old.get? metric with
  | none =>
    rw [hbefore, Option.isSome_none, Option.isSome_eq_false_iff, Option.isNone_iff_eq_none]
      at hcounters
    rw [hcounters, Option.bind_none] at hreported
    rw [Metrics.amount_of_get?_eq_none hreported, Metrics.amount_of_get?_eq_none hcounters,
      Metrics.amount_of_get?_eq_none hbefore, Int.sub_zero]
  | some before =>
    rw [hbefore] at hcounters
    obtain ⟨now, hnow⟩ := Option.isSome_iff_exists.mp hcounters
    have hless : now.isLess before = false :=
      Bool.eq_false_iff.mpr fun less => hgrown ⟨metric, now, before, hnow, hbefore, less⟩
    rw [hnow, hbefore, Option.bind_some, Option.map_some] at hreported
    rw [Metrics.amount_of_get? hreported, Metrics.amount_of_get? hnow,
      Metrics.amount_of_get? hbefore]
    exact (Counter.growth_of_isNatural (htotals _ _ hnow) (hold _ _ hbefore) hless).2

/-- Natural totals of rows have fallen if one of the watched ones has gone down. -/
theorem hasFallen_totals_iff_amount_lt {rows : List ρ}
    (htotals : (Baselines.totals watched rows).IsNatural)
    (hold : old.IsNatural) (hsame : (Baselines.totals watched rows).sameMetrics old = true) :
    (Baselines.totals watched rows).HasFallen old ↔
      ∃ metric ∈ watched, (Baselines.totals watched rows).amount metric < old.amount metric := by
  rw [Metrics.hasFallen_iff_amount_lt htotals hold hsame]
  constructor
  · rintro ⟨metric, hlt⟩
    refine ⟨metric, ?_, hlt⟩
    by_contra hunwatched
    -- of what is not watched there is no old value either
    have hcounters := Metrics.sameMetrics_iff.mp hsame metric
    rw [get?_totals, if_neg hunwatched, Option.isSome_none, eq_comm, Option.isSome_eq_false_iff,
      Option.isNone_iff_eq_none] at hcounters
    rw [amount_totals_of_unwatched hunwatched, Metrics.amount_of_get?_eq_none hcounters] at hlt
    exact Int.lt_irrefl 0 hlt
  · rintro ⟨metric, -, hlt⟩
    exact ⟨metric, hlt⟩

/-- Nothing negative is reported of natural totals. -/
theorem IsReport.isNatural (h : IsReport watched old totals first report) (hold : old.IsNatural)
    (htotals : totals.IsNatural) {value : Counter} (hwatched : metric ∈ watched)
    (hvalue : (HasMetrics.metrics report).get? metric = some value) : value.IsNatural := by
  by_cases hfallen : totals.HasFallen old
  · rw [h.of_fallen hfallen metric hwatched] at hvalue
    exact htotals metric value hvalue
  · rw [h.of_grown hfallen metric hwatched] at hvalue
    obtain ⟨now, hnow, hgrowth⟩ := Option.bind_eq_some_iff.mp hvalue
    obtain ⟨before, hbefore, rfl⟩ := Option.map_eq_some_iff.mp hgrowth
    have hless : now.isLess before = false :=
      Bool.eq_false_iff.mpr fun less => hfallen ⟨metric, now, before, hnow, hbefore, less⟩
    exact (Counter.growth_of_isNatural (htotals _ _ hnow) (hold _ _ hbefore) hless).1

end

end Baselines

end QueryTelemetry
