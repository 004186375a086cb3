import QueryTelemetry.Proofs.Baselines.Restarts
import QueryTelemetry.Proofs.Collection.Cycles

/-!
# What a comparison reports of an identity

Let statements have natural numbers for the same metrics, and let the totals of an identity not go
down. Then the comparison with earlier statements reports the difference of the totals
(`amountOf_advance`). That includes differences of zero: a report that is suppressed has nothing but
zeros. A first comparison reports nothing.
-/

namespace QueryTelemetry

namespace Collector

open Baselines (Batch distinctKeys reportOf? rowsWith total? totals)

/-- The totals of an identity among statements, as a number for a metric. -/
def mergedAmount (k : Identity) (metric : Metric) (statements : List NormalStatement) : Int :=
  ((total? metric (rowsWith NormalStatement.identity k statements)).map Counter.toInt).getD 0

/-- All statements have natural numbers for the same metrics, and there are some of the identity. -/
structure IsUniform (metrics : List Metric) (k : Identity) (statements : List NormalStatement) :
    Prop where
  present : ∀ s ∈ statements, s.statement.metrics.present = metrics
  natural : ∀ s ∈ statements, s.statement.metrics.IsNatural
  occurs : ∃ s ∈ statements, s.identity = k

variable {metrics : List Metric} {k : Identity} {statements earlier : List NormalStatement}

/-! ### One comparison -/

theorem get?_eq_none_of_present {m : Metrics} (hpresent : m.present = metrics) {metric : Metric}
    (h : metric ∉ metrics) : m.get? metric = none := by
  rw [← hpresent, Metrics.mem_present] at h
  simpa using h

theorem amount_eq_zero_of_present {m : Metrics} (hpresent : m.present = metrics) {metric : Metric}
    (h : metric ∉ metrics) : m.amount metric = 0 :=
  Metrics.amount_of_get?_eq_none (get?_eq_none_of_present hpresent h)

namespace IsUniform

theorem watchedMetrics_eq (h : IsUniform metrics k statements) :
    watchedMetrics statements = metrics := by
  obtain ⟨s, hs, -⟩ := h.occurs
  cases statements with
  | nil => cases hs
  | cons first rest => exact h.present first List.mem_cons_self

theorem present_of_head? (h : IsUniform metrics k statements) {first : NormalStatement}
    (hfirst : (rowsWith NormalStatement.identity k statements).head? = some first) :
    first.statement.metrics.present = metrics :=
  h.present first (Baselines.mem_rowsWith.mp (List.mem_of_mem_head? hfirst)).1

theorem mem_distinctKeys (h : IsUniform metrics k statements) :
    k ∈ distinctKeys NormalStatement.identity statements :=
  Baselines.mem_distinctKeys.mpr h.occurs

/-- The identity has natural numbers for these metrics in its totals. -/
theorem tracks (h : IsUniform metrics k statements) :
    (Batch.mk NormalStatement.identity statements).Tracks metrics k metrics := by
  refine .of_rows h.occurs fun s hs _ => ?_
  have hrestrict : s.statement.metrics.restrict metrics = s.statement.metrics := by
    refine Metrics.ext_get? fun metric => ?_
    rw [Metrics.get?_restrict]
    split
    · rfl
    · exact (get?_eq_none_of_present (h.present s hs) ‹_›).symm
  refine ⟨?_, ?_⟩
  · exact (congrArg Metrics.present hrestrict).trans (h.present s hs)
  · exact hrestrict ▸ h.natural s hs

/-- The totals are natural numbers. -/
theorem isNatural_totals (h : IsUniform metrics k statements) :
    (totals metrics (rowsWith NormalStatement.identity k statements)).IsNatural :=
  h.tracks.natural

theorem present_totals (h : IsUniform metrics k statements) :
    (totals metrics (rowsWith NormalStatement.identity k statements)).present = metrics :=
  h.tracks.present

theorem amount_totals (h : IsUniform metrics k statements) (metric : Metric) :
    (totals metrics (rowsWith NormalStatement.identity k statements)).amount metric =
      mergedAmount k metric statements := by
  rw [Metrics.amount, Baselines.get?_totals, mergedAmount]
  split
  · rfl
  · -- no statement has a value for the metric
    have hvalues : (rowsWith NormalStatement.identity k statements).filterMap
        (fun s => (HasMetrics.metrics s).get? metric) = [] :=
      List.filterMap_eq_nil_iff.mpr fun s hs =>
        get?_eq_none_of_present (h.present s (Baselines.mem_rowsWith.mp hs).1) ‹_›
    rw [total?, hvalues]
    rfl

end IsUniform

theorem amountOf_cons (k : Identity) (metric : Metric) (s : NormalStatement)
    (rest : List NormalStatement) :
    amountOf k metric (s :: rest) =
      (if s.identity = k then s.statement.metrics.amount metric else 0) +
        amountOf k metric rest := by
  rw [amountOf, List.filter_cons]
  by_cases h : s.identity = k
  · rw [if_pos (decide_eq_true h), if_pos h, List.map_cons, List.sum_cons]
    rfl
  · rw [if_neg (by simpa using h), if_neg h, Int.zero_add]
    rfl

/-- If each key has a report of its own, the report of an identity is all there is of it. -/
theorem amountOf_filterMap (k : Identity) (metric : Metric) {keys : List Identity}
    {report? : Identity → Option NormalStatement} (hkeys : keys.Nodup)
    (hreport : ∀ key row, report? key = some row → row.identity = key) :
    amountOf k metric (keys.filterMap report?) =
      if k ∈ keys then
        ((report? k).map fun row => row.statement.metrics.amount metric).getD 0
      else 0 := by
  induction keys with
  | nil => rfl
  | cons key keys ih =>
    rw [List.nodup_cons] at hkeys
    have hrest := ih hkeys.2
    rw [List.filterMap_cons]
    by_cases hk : k = key
    · subst hk
      rw [if_neg hkeys.1] at hrest
      rw [if_pos List.mem_cons_self]
      cases hrow : report? k with
      | none => exact hrest
      | some row =>
        simp only
        rw [amountOf_cons, if_pos (hreport k row hrow), hrest, Int.add_zero]
        rfl
    · -- the report of another key has another identity
      have hmem : k ∈ key :: keys ↔ k ∈ keys := by simp [hk]
      simp only [hmem]
      rw [← hrest]
      cases hrow : report? key with
      | none => rfl
      | some row =>
        have hother : ¬ row.identity = k := by
          rw [hreport key row hrow]
          exact fun same => hk same.symm
        simp only
        rw [amountOf_cons, if_neg hother, Int.zero_add]

/-- What is reported of a key has that identity. -/
theorem identity_of_reportOf? {watched : List Metric} {b : Baselines Identity} {key : Identity}
    {row : NormalStatement}
    (h : reportOf? watched NormalStatement.identity statements b key = some row) :
    row.identity = key := by
  obtain ⟨old, first, -, hfirst, hreport⟩ := Baselines.reportOf?_eq_some_iff.mp h
  have hkey : first.identity = key :=
    (Baselines.mem_rowsWith.mp (List.mem_of_mem_head? hfirst)).2
  rw [hreport.same_row]
  exact hkey

/-- What a cycle reports is the report of its identity. -/
theorem reportOf?_of_mem_advance {watched : List Metric} {b : Baselines Identity}
    {s : NormalStatement}
    (h : s ∈ (b.advance watched NormalStatement.identity statements).1) :
    reportOf? watched NormalStatement.identity statements b s.identity = some s := by
  rw [Baselines.reports_advance] at h
  obtain ⟨k, -, hreport⟩ := List.mem_filterMap.mp h
  rw [identity_of_reportOf? hreport]
  exact hreport

/-- A report has no other counters than the statements. -/
theorem get?_of_reportOf?_of_unwatched {b : Baselines Identity} {row : NormalStatement}
    (h : IsUniform metrics k statements)
    (hreport : reportOf? metrics NormalStatement.identity statements b k = some row)
    {metric : Metric} (hmetric : metric ∉ metrics) :
    row.statement.metrics.get? metric = none := by
  obtain ⟨old, first, -, hfirst, hreport⟩ := Baselines.reportOf?_eq_some_iff.mp hreport
  exact (hreport.of_unwatched metric hmetric).trans
    (get?_eq_none_of_present (h.present_of_head? hfirst) hmetric)

/-- What a cycle reports of an identity is the report of its key. -/
theorem amountOf_advance_eq (h : IsUniform metrics k statements) (b : Baselines Identity)
    (metric : Metric) :
    amountOf k metric
        (b.advance (watchedMetrics statements) NormalStatement.identity statements).1 =
      ((reportOf? metrics NormalStatement.identity statements b k).map fun row =>
        row.statement.metrics.amount metric).getD 0 := by
  rw [Baselines.reports_advance, amountOf_filterMap k metric (Baselines.nodup_distinctKeys _ _)
    fun key row hrow => identity_of_reportOf? hrow, if_pos h.mem_distinctKeys, h.watchedMetrics_eq]

/-- A first comparison reports nothing. -/
theorem amountOf_advance_of_first {b : Baselines Identity} (h : IsUniform metrics k statements)
    (hb : b.get? k = none) (metric : Metric) :
    amountOf k metric
      (b.advance (watchedMetrics statements) NormalStatement.identity statements).1 = 0 := by
  rw [amountOf_advance_eq h]
  cases hreport : reportOf? metrics NormalStatement.identity statements b k with
  | none => rfl
  | some row =>
    obtain ⟨old, _, hold, _⟩ := Baselines.reportOf?_eq_some_iff.mp hreport
    rw [hb] at hold
    cases hold

/-- One comparison reports the growth since the one before it. -/
theorem amountOf_advance {b : Baselines Identity} (hearlier : IsUniform metrics k earlier)
    (h : IsUniform metrics k statements)
    (hb : b.get? k = some (totals metrics (rowsWith NormalStatement.identity k earlier)))
    (hgrows : ∀ metric, mergedAmount k metric earlier ≤ mergedAmount k metric statements)
    (metric : Metric) :
    amountOf k metric
        (b.advance (watchedMetrics statements) NormalStatement.identity statements).1 =
      mergedAmount k metric statements - mergedAmount k metric earlier := by
  rw [amountOf_advance_eq h, ← h.amount_totals, ← hearlier.amount_totals]
  by_cases hmetric : metric ∈ metrics
  · have hreported := Baselines.reportedAmount_report? hearlier.tracks h.tracks hb hmetric
    rw [if_neg, Int.add_zero, Baselines.reportedAmount, Batch.report?, Option.map_map] at hreported
    · exact hreported
    · rintro ⟨metric, -, hlt⟩
      rw [Batch.totals, Batch.totals, h.amount_totals, hearlier.amount_totals] at hlt
      exact absurd (hgrows metric) (Int.not_le.mpr hlt)
  · -- neither the totals nor a report have a value for the metric
    rw [amount_eq_zero_of_present h.present_totals hmetric,
      amount_eq_zero_of_present hearlier.present_totals hmetric, Int.sub_zero]
    cases hreport : reportOf? metrics NormalStatement.identity statements b k with
    | none => rfl
    | some row =>
      have hnone := get?_of_reportOf?_of_unwatched h hreport hmetric
      exact Metrics.amount_of_get?_eq_none hnone

/-- What is reported of natural counters are natural numbers. -/
theorem isNatural_of_mem_advance {b : Baselines Identity} (h : IsUniform metrics k statements)
    (hb : ∀ old, b.get? k = some old → old.IsNatural) {s : NormalStatement}
    (hs : s ∈ (b.advance (watchedMetrics statements) NormalStatement.identity statements).1)
    (hk : s.identity = k) : s.statement.metrics.IsNatural := by
  have hreport := reportOf?_of_mem_advance hs
  rw [hk, h.watchedMetrics_eq] at hreport
  intro metric value hvalue
  by_cases hmetric : metric ∈ metrics
  · obtain ⟨old, first, hold, -, hreport⟩ := Baselines.reportOf?_eq_some_iff.mp hreport
    exact hreport.isNatural (hb old hold) h.isNatural_totals hmetric hvalue
  · cases hvalue.symm.trans (get?_of_reportOf?_of_unwatched h hreport hmetric)

end Collector

end QueryTelemetry
