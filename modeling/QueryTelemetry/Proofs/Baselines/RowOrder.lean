import Mathlib.Algebra.BigOperators.Group.List.Basic
import QueryTelemetry.Proofs.Baselines.Memory

/-!
# The order of rows does not matter

The rows of a cycle come in no particular order. Merging goes through them one by one, adds with
saturation and keeps the first row of each key, and yet nothing that is said of the counters depends
on the order: saturation is harmless as long as nothing negative is added, so the total of a key is
the exact sum, cut off at the end of the range (`sum?_of_isNatural`), and what is reported of a key
depends on its totals and not on which row comes first (`map_restrict_report?_combine`). Rows in
another order leave the same baselines and report the same counters of the same keys
(`advance_perm`).
-/

namespace QueryTelemetry

namespace Baselines

/-! ### Totals of natural counters -/

variable {κ ρ : Type} [DecidableEq κ] [HasMetrics ρ] {key : ρ → κ} {k : κ} {rows rows' : List ρ}
  {watched : List Metric} {metric : Metric}

theorem sum?_perm {values values' : List Counter} (h : ∀ value ∈ values, value.IsNatural)
    (hperm : values.Perm values') : sum? values = sum? values' := by
  have hnil : values = [] ↔ values' = [] := by
    rw [← List.length_eq_zero_iff, hperm.length_eq, List.length_eq_zero_iff]
  rw [sum?_of_isNatural h, sum?_of_isNatural fun value hvalue => h value (hperm.mem_iff.mpr hvalue),
    (hperm.map Counter.toInt).sum_eq]
  simp only [hnil]

/-- The totals of natural numbers do not depend on the order of the rows. -/
theorem totals_perm (h : ∀ metric ∈ watched, CountsNaturally metric rows)
    (hperm : rows.Perm rows') : totals watched rows = totals watched rows' := by
  refine Metrics.ext_get? fun metric => ?_
  rw [get?_totals, get?_totals]
  split
  · rename_i hwatched
    exact sum?_perm (h metric hwatched).of_mem_valuesOf (hperm.filterMap _)
  · rfl

/-- The totals of a key do not depend on it either. -/
theorem totals_rowsWith_perm (h : (Operation.advance watched key rows).IsNatural)
    (hperm : rows.Perm rows') (k : κ) :
    totals watched (rowsWith key k rows) = totals watched (rowsWith key k rows') :=
  totals_perm (fun _ hwatched => countsNaturally_rowsWith h k hwatched) (hperm.filter _)

/-! ### The keys and their rows -/

theorem distinctKeys_perm (hperm : rows.Perm rows') (key : ρ → κ) :
    (distinctKeys key rows).Perm (distinctKeys key rows') := by
  rw [List.perm_ext_iff_of_nodup (nodup_distinctKeys key rows) (nodup_distinctKeys key rows')]
  intro k
  simp only [mem_distinctKeys, hperm.mem_iff]

/-- What is remembered is the same up to the order of the keys. -/
theorem entries_advance_perm (h : (Operation.advance watched key rows).IsNatural)
    (hperm : rows.Perm rows') (b b' : Baselines κ) :
    (b.advance watched key rows).2.entries.Perm (b'.advance watched key rows').2.entries := by
  rw [entries_advance, entries_advance]
  simp only [totals_rowsWith_perm h hperm]
  exact (distinctKeys_perm hperm key).map _

/-! ### Reports with their keys -/

variable {b : Baselines κ}

/-- What a cycle reports, with the key of each report. -/
def keyedReports (watched : List Metric) (key : ρ → κ) (rows : List ρ) (b : Baselines κ) :
    List (κ × ρ) :=
  (merge watched key rows).filterMap fun (k, row) => (report? watched b k row).map (k, ·)

/-- The watched counters of what a cycle reports, with the keys. -/
def reportedCounters (watched : List Metric) (key : ρ → κ) (rows : List ρ) (b : Baselines κ) :
    List (κ × Metrics) :=
  (keyedReports watched key rows b).map fun (k, row) =>
    (k, (HasMetrics.metrics row).restrict watched)

/-- Without their keys they are the reports. -/
theorem map_snd_keyedReports (watched : List Metric) (key : ρ → κ) (rows : List ρ)
    (b : Baselines κ) :
    (keyedReports watched key rows b).map Prod.snd = (b.advance watched key rows).1 := by
  rw [keyedReports, List.map_filterMap]
  refine List.filterMap_congr fun entry _ => ?_
  rw [Option.map_map]
  exact congrFun Option.map_id _

theorem keyedReports_eq (watched : List Metric) (key : ρ → κ) (rows : List ρ) (b : Baselines κ) :
    keyedReports watched key rows b =
      (distinctKeys key rows).filterMap fun k =>
        (reportOf? watched key rows b k).map (k, ·) := by
  rw [keyedReports, merge_eq, List.filterMap_filterMap]
  refine List.filterMap_congr fun k _ => ?_
  rw [Option.bind_map, reportOf?, Option.map_bind]
  rfl

/-- Whether counters are zero depends on the watched ones only. -/
theorem allZero_restrict (m : Metrics) (watched : List Metric) :
    (m.restrict watched).allZero watched = m.allZero watched := by
  rw [Bool.eq_iff_iff, Metrics.allZero, Metrics.allZero, List.all_eq_true, List.all_eq_true]
  refine forall₂_congr fun metric hwatched => ?_
  rw [Metrics.get?_restrict, if_pos hwatched]

/-- Whichever row is the first, there is a report with the same watched counters. -/
theorem IsReport.exists_of_first {old totals : Metrics} {first report : ρ}
    (h : IsReport watched old totals first report) (first' : ρ) :
    ∃ report', IsReport watched old totals first' report' ∧
      (HasMetrics.metrics report').restrict watched =
        (HasMetrics.metrics report).restrict watched := by
  have hcounters : (reportedMetrics watched old totals first').restrict watched =
      (reportedMetrics watched old totals first).restrict watched := by
    refine Metrics.ext_get? fun metric => ?_
    simp only [Metrics.get?_restrict, reportedMetrics, Metrics.get?_ofFn]
    split <;> rfl
  obtain ⟨hsame, hreport, hzero⟩ := isReport_iff.mp h
  have hmetrics : HasMetrics.metrics report = reportedMetrics watched old totals first := by
    rw [hreport, HasMetrics.metrics_withMetrics]
  refine ⟨HasMetrics.withMetrics first' (reportedMetrics watched old totals first'),
    isReport_iff.mpr ⟨hsame, rfl, ?_⟩, ?_⟩ <;> rw [HasMetrics.metrics_withMetrics]
  · rw [← allZero_restrict, hcounters, ← hmetrics, allZero_restrict]
    exact hzero
  · rw [hcounters, hmetrics]

/-- The watched counters of what is reported of combined rows depend on their totals only. -/
theorem map_restrict_report?_combine (htotals : totals watched rows = totals watched rows')
    (first first' : ρ) (b : Baselines κ) (k : κ) :
    (report? watched b k (combine watched first rows)).map
        (fun row => (HasMetrics.metrics row).restrict watched) =
      (report? watched b k (combine watched first' rows')).map
        fun row => (HasMetrics.metrics row).restrict watched := by
  refine Option.ext fun counters => ?_
  simp only [Option.map_eq_some_iff, report?_combine, htotals]
  constructor
  · rintro ⟨report, ⟨old, hold, hreport⟩, rfl⟩
    obtain ⟨report', hreport', hcounters⟩ := hreport.exists_of_first first'
    exact ⟨report', ⟨old, hold, hreport'⟩, hcounters⟩
  · rintro ⟨report, ⟨old, hold, hreport⟩, rfl⟩
    obtain ⟨report', hreport', hcounters⟩ := hreport.exists_of_first first
    exact ⟨report', ⟨old, hold, hreport'⟩, hcounters⟩

/-- The watched counters that are reported are the same up to the order of the keys. -/
theorem reportedCounters_perm (h : (Operation.advance watched key rows).IsNatural)
    (hperm : rows.Perm rows') (b : Baselines κ) :
    (reportedCounters watched key rows b).Perm (reportedCounters watched key rows' b) := by
  have hkeys := distinctKeys_perm hperm key
  have hreported : ∀ rows : List ρ, reportedCounters watched key rows b =
      (distinctKeys key rows).filterMap fun k =>
        ((reportOf? watched key rows b k).map
          fun row => (HasMetrics.metrics row).restrict watched).map (k, ·) := by
    intro rows
    rw [reportedCounters, keyedReports_eq, List.map_filterMap]
    refine List.filterMap_congr fun k _ => ?_
    rw [Option.map_map, Option.map_map]
    rfl
  rw [hreported, hreported]
  refine List.Perm.trans (hkeys.filterMap _) (.of_eq (List.filterMap_congr fun k hk => ?_))
  obtain ⟨first, hfirst⟩ := exists_head?_rowsWith (hkeys.mem_iff.mpr hk)
  obtain ⟨first', hfirst'⟩ := exists_head?_rowsWith hk
  rw [reportOf?, reportOf?, hfirst, hfirst', Option.bind_some, Option.bind_some,
    map_restrict_report?_combine (totals_rowsWith_perm h hperm k) first first']

/-- Reports have their keys, if keys do not depend on counters. -/
theorem key_of_mem_keyedReports (hkey : ∀ row m, key (HasMetrics.withMetrics row m) = key row)
    {entry : κ × ρ} (h : entry ∈ keyedReports watched key rows b) : key entry.2 = entry.1 := by
  rw [keyedReports_eq] at h
  obtain ⟨k, -, hreport⟩ := List.mem_filterMap.mp h
  obtain ⟨row, hrow, rfl⟩ := Option.map_eq_some_iff.mp hreport
  obtain ⟨old, first, -, hfirst, hreport⟩ := reportOf?_eq_some_iff.mp hrow
  rw [hreport.same_row, hkey]
  exact (mem_rowsWith.mp (List.mem_of_head? hfirst)).2

/-- A merged row has the totals of the rows with its key. -/
theorem get?_metrics_of_mem_merge {row : ρ} (h : (k, row) ∈ merge watched key rows)
    (hwatched : metric ∈ watched) :
    (HasMetrics.metrics row).get? metric = total? metric (rowsWith key k rows) := by
  rw [merge_eq] at h
  obtain ⟨k', -, hentry⟩ := List.mem_filterMap.mp h
  obtain ⟨first, -, heq⟩ := Option.map_eq_some_iff.mp hentry
  obtain ⟨rfl, rfl⟩ := Prod.mk.inj heq
  rw [get?_metrics_combine, if_pos hwatched]

/-! ### Rows in another order -/

/-- Rows with natural counters, in any order, leave the same baselines and report the same watched
counters of the same keys. Each key has one merged row. A watched counter of it is there if some row
of the key has it, and it is the exact sum of what the rows have, unless this lies beyond the end of
the range: then it is the end of the range. -/
theorem advance_perm (b : Baselines κ) (watched : List Metric) (key : ρ → κ) (rows rows' : List ρ)
    (hperm : rows.Perm rows') (hnatural : (Operation.advance watched key rows).IsNatural) :
    (∀ k, (b.advance watched key rows).2.get? k = (b.advance watched key rows').2.get? k) ∧
    (b.advance watched key rows).2.entries.Perm (b.advance watched key rows').2.entries ∧
    (reportedCounters watched key rows b).Perm (reportedCounters watched key rows' b) ∧
    (b.advance watched key rows).1 = (keyedReports watched key rows b).map Prod.snd ∧
    ((∀ row m, key (HasMetrics.withMetrics row m) = key row) →
      ((b.advance watched key rows).1.map fun row =>
          (key row, (HasMetrics.metrics row).restrict watched)).Perm
        ((b.advance watched key rows').1.map fun row =>
          (key row, (HasMetrics.metrics row).restrict watched))) ∧
    ((merge watched key rows).map Prod.fst).Nodup ∧
    (∀ k, k ∈ (merge watched key rows).map Prod.fst ↔ ∃ row ∈ rows, key row = k) ∧
    ∀ k row, (k, row) ∈ merge watched key rows → ∀ metric ∈ watched,
      (((HasMetrics.metrics row).get? metric).isSome = true ↔
        ∃ other ∈ rowsWith key k rows, ((HasMetrics.metrics other).get? metric).isSome = true) ∧
      ∀ total, (HasMetrics.metrics row).get? metric = some total →
        ∃ n : Int64, total = .whole n ∧
          n.toInt = min ((valuesOf metric (rowsWith key k rows)).map Counter.toInt).sum
            (2 ^ 63 - 1) := by
  have hreported := reportedCounters_perm hnatural hperm b
  refine ⟨fun k => ?_, entries_advance_perm hnatural hperm b b, hreported,
    (map_snd_keyedReports watched key rows b).symm, fun hkey => ?_,
    nodup_keys_merge watched key rows, fun k => ?_, fun k row hrow metric hwatched => ?_⟩
  · rw [get?, get?, entries_advance, entries_advance, lookup_map_pair, lookup_map_pair,
      totals_rowsWith_perm hnatural hperm k]
    simp only [(distinctKeys_perm hperm key).mem_iff]
  · -- the pairs can be read off the reports themselves
    have hpairs : ∀ rows : List ρ, ((b.advance watched key rows).1.map fun row =>
        (key row, (HasMetrics.metrics row).restrict watched)) =
          reportedCounters watched key rows b := by
      intro rows
      rw [← map_snd_keyedReports, List.map_map, reportedCounters]
      refine List.map_congr_left fun entry hentry => ?_
      rw [Function.comp_apply, key_of_mem_keyedReports hkey hentry]
    rw [hpairs, hpairs]
    exact hreported
  · rw [keys_merge]
    exact mem_distinctKeys
  · rw [get?_metrics_of_mem_merge hrow hwatched]
    refine ⟨?_, fun total htotal =>
      exists_of_total?_eq_some (countsNaturally_rowsWith hnatural k hwatched) htotal⟩
    rw [isSome_total?, List.any_eq_true]

/-- Rows of two databases. Those of the first one have different counters, and their calls add up to
more than there is room for. -/
def scatteredRows : List Statement :=
  [statementIn "a" (Metrics.empty.set .calls (.whole Int64.maxValue)),
    statementIn "b" (Metrics.empty.set .rows (.whole 3)),
    statementIn "a" ((Metrics.empty.set .calls (.whole 5)).set .rows (.whole 7))]

/-- What is remembered of the first database. -/
def scatteredBaselines : Baselines (Option String) :=
  ⟨[(some "a", (Metrics.empty.set .calls (.whole 2)).set .rows (.whole 1))]⟩

/-- The rows in reverse order leave the same baselines and report the same counters. The calls of
the first database stop at the end of the range. -/
theorem advance_perm_reverse :
    scatteredRows.Perm scatteredRows.reverse ∧
    (Operation.advance [.calls, .rows] Statement.database scatteredRows).IsNatural ∧
    (∀ (row : Statement) m, (HasMetrics.withMetrics row m).database = row.database) ∧
    (∀ k, (scatteredBaselines.advance [.calls, .rows] Statement.database scatteredRows).2.get? k =
      (scatteredBaselines.advance [.calls, .rows] Statement.database
        scatteredRows.reverse).2.get? k) ∧
    ((scatteredBaselines.advance [.calls, .rows] Statement.database scatteredRows).1.map fun row =>
        (row.database, (HasMetrics.metrics row).restrict [.calls, .rows])).Perm
      ((scatteredBaselines.advance [.calls, .rows] Statement.database scatteredRows.reverse).1.map
        fun row => (row.database, (HasMetrics.metrics row).restrict [.calls, .rows])) ∧
    ∃ row, (some "a", row) ∈ merge [.calls, .rows] Statement.database scatteredRows ∧
      ∃ n : Int64, (HasMetrics.metrics row).get? .calls = some (.whole n) ∧
        n.toInt = 2 ^ 63 - 1 := by
  have hperm : scatteredRows.Perm scatteredRows.reverse := (List.reverse_perm _).symm
  have hnatural : (Operation.advance [.calls, .rows] Statement.database
      scatteredRows).IsNatural := by
    have hset := fun (n : Int64) (h : 0 ≤ n.toInt) => Metrics.isNatural_empty.set
      (Counter.isNatural_whole h)
    refine isNatural_advance ?_
    simp only [scatteredRows, List.forall_mem_cons]
    exact ⟨hset _ (by decide) _, hset _ (by decide) _,
      (hset _ (by decide) _).set (Counter.isNatural_whole (by decide)) _, nofun⟩
  have hdatabase : ∀ (row : Statement) m, (HasMetrics.withMetrics row m).database = row.database :=
    fun _ _ => rfl
  obtain ⟨hget, -, -, -, hreported, -, hkeys, htotals⟩ := advance_perm scatteredBaselines
    [.calls, .rows] Statement.database scatteredRows scatteredRows.reverse hperm hnatural
  refine ⟨hperm, hnatural, hdatabase, hget, hreported hdatabase, ?_⟩
  obtain ⟨⟨_, row⟩, hrow, rfl⟩ :=
    List.mem_map.mp ((hkeys (some "a")).mpr ⟨_, List.mem_cons_self, rfl⟩)
  obtain ⟨hthere, hsum⟩ := htotals _ row hrow .calls (by decide)
  obtain ⟨total, htotal⟩ := Option.isSome_iff_exists.mp
    (hthere.mpr ⟨_, mem_rowsWith.mpr ⟨List.mem_cons_self, rfl⟩, rfl⟩)
  obtain ⟨n, rfl, hn⟩ := hsum total htotal
  refine ⟨row, hrow, n, htotal, hn.trans ?_⟩
  decide +kernel

end Baselines

end QueryTelemetry
