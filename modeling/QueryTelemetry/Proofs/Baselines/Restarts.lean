import Mathlib.Algebra.Ring.Int.Defs
import QueryTelemetry.Proofs.Baselines.Memory

/-!
# Growth across restarts

Let a key come up in each of a number of consecutive cycles, with natural numbers for the same
counters. When one of them goes down, the server has started over, and what the others had before is
lost with it. What is reported of the key from the second cycle on adds up to the difference between
its last totals and its first ones, and to what has been lost on the way (`sum_reports`).
-/

namespace QueryTelemetry

namespace Baselines

variable {κ ρ : Type} [DecidableEq κ] [HasMetrics ρ]

/-! ### One report -/

/-- The counters of the report of a key; zeros that are not reported count as well. -/
theorem amount_reportOf? {watched : List Metric} {key : ρ → κ} {rows : List ρ} {b : Baselines κ}
    {k : κ} {old : Metrics} {first : ρ} (hold : b.get? k = some old)
    (hfirst : (rowsWith key k rows).head? = some first)
    (hsame : (totals watched (rowsWith key k rows)).sameMetrics old = true) {metric : Metric}
    (hwatched : metric ∈ watched) :
    ((reportOf? watched key rows b k).map fun row =>
        (HasMetrics.metrics row).amount metric).getD 0 =
      (reportedMetrics watched old (totals watched (rowsWith key k rows)) first).amount metric := by
  cases hreport : reportOf? watched key rows b k with
  | some row =>
    obtain ⟨old', first', hold', hfirst', hreport⟩ := reportOf?_eq_some_iff.mp hreport
    obtain rfl := Option.some.inj (hold.symm.trans hold')
    obtain rfl := Option.some.inj (hfirst.symm.trans hfirst')
    obtain ⟨-, rfl, -⟩ := isReport_iff.mp hreport
    rw [Option.map_some, Option.getD_some, HasMetrics.metrics_withMetrics]
  | none =>
    refine (Metrics.amount_of_allZero (Bool.of_not_eq_false fun hzero => ?_) hwatched).symm
    have hsome := reportOf?_eq_some_iff.mpr ⟨old, first, hold, hfirst, isReport_iff.mpr
      ⟨hsame, rfl, (congrArg (Metrics.allZero · watched)
        (HasMetrics.metrics_withMetrics first _)).trans hzero⟩⟩
    cases hreport.symm.trans hsome

/-! ### Batches of rows -/

/-- The rows of a cycle, of any kind, with their keys. -/
structure Batch (κ : Type) : Type 1 where
  {ρ : Type}
  [hasMetrics : HasMetrics ρ]
  key : ρ → κ
  rows : List ρ

attribute [instance] Batch.hasMetrics

namespace Batch

/-- The cycle in which the rows come. -/
def operation (watched : List Metric) (batch : Batch κ) : Operation κ :=
  .advance watched batch.key batch.rows

/-- The totals of a key. -/
def totals (watched : List Metric) (k : κ) (batch : Batch κ) : Metrics :=
  Baselines.totals watched (rowsWith batch.key k batch.rows)

/-- The counters that are reported of a key. -/
def report? (watched : List Metric) (k : κ) (b : Baselines κ) (batch : Batch κ) :
    Option Metrics :=
  (reportOf? watched batch.key batch.rows b k).map HasMetrics.metrics

/-- The key comes up, with natural numbers for these counters in its totals. -/
structure Tracks (watched : List Metric) (k : κ) (counters : List Metric) (batch : Batch κ) :
    Prop where
  occurs : ∃ row ∈ batch.rows, batch.key row = k
  present : (batch.totals watched k).present = counters
  natural : (batch.totals watched k).IsNatural

/-- Some watched counter of the key is less than it was in an earlier cycle. -/
def HasRestarted (watched : List Metric) (k : κ) (batch earlier : Batch κ) : Prop :=
  ∃ metric ∈ watched,
    (batch.totals watched k).amount metric < (earlier.totals watched k).amount metric

instance (watched : List Metric) (k : κ) (batch earlier : Batch κ) :
    Decidable (batch.HasRestarted watched k earlier) :=
  inferInstanceAs (Decidable (∃ metric ∈ watched, _))

variable {watched : List Metric} {k : κ} {counters : List Metric} {earlier batch : Batch κ}

namespace Tracks

theorem mem_distinctKeys (h : batch.Tracks watched k counters) :
    k ∈ distinctKeys batch.key batch.rows :=
  Baselines.mem_distinctKeys.mpr h.occurs

/-- The totals are remembered. -/
theorem get?_run (h : batch.Tracks watched k counters) (b : Baselines κ) :
    ((batch.operation watched).run b).get? k = some (batch.totals watched k) := by
  rw [Baselines.get?_run]
  exact if_pos h.mem_distinctKeys

theorem sameMetrics (hearlier : earlier.Tracks watched k counters)
    (h : batch.Tracks watched k counters) :
    (batch.totals watched k).sameMetrics (earlier.totals watched k) = true := by
  rw [Metrics.sameMetrics, h.present, hearlier.present, beq_self_eq_true]

theorem hasFallen_iff (hearlier : earlier.Tracks watched k counters)
    (h : batch.Tracks watched k counters) :
    (batch.totals watched k).HasFallen (earlier.totals watched k) ↔
      batch.HasRestarted watched k earlier :=
  hasFallen_totals_iff_amount_lt h.natural hearlier.natural (hearlier.sameMetrics h)

/-- It is enough that each row of the key has natural numbers for these counters. -/
theorem of_rows {key : ρ → κ} {rows : List ρ} (hoccurs : ∃ row ∈ rows, key row = k)
    (hrows : ∀ row ∈ rows, key row = k →
      ((HasMetrics.metrics row).restrict watched).present = counters ∧
        ((HasMetrics.metrics row).restrict watched).IsNatural) :
    (Batch.mk key rows).Tracks watched k counters := by
  have hcounters : ∀ row ∈ rowsWith key k rows, ∀ metric ∈ watched,
      ((HasMetrics.metrics row).get? metric).isSome = decide (metric ∈ counters) := by
    intro row hrow metric hwatched
    obtain ⟨hrow, hk⟩ := mem_rowsWith.mp hrow
    rw [← (hrows row hrow hk).1, Bool.eq_iff_iff, decide_eq_true_iff, Metrics.mem_present,
      Metrics.get?_restrict, if_pos hwatched]
  have htotals : ∀ metric ∈ watched,
      ((Baselines.totals watched (rowsWith key k rows)).get? metric).isSome =
        decide (metric ∈ counters) := by
    intro metric hwatched
    rw [get?_totals, if_pos hwatched, isSome_total?, Bool.eq_iff_iff, List.any_eq_true]
    constructor
    · rintro ⟨row, hrow, hvalue⟩
      exact (hcounters row hrow metric hwatched).symm.trans hvalue
    · intro hmetric
      obtain ⟨row, hrow, hk⟩ := hoccurs
      have hmem : row ∈ rowsWith key k rows := mem_rowsWith.mpr ⟨hrow, hk⟩
      exact ⟨row, hmem, (hcounters row hmem metric hwatched).trans hmetric⟩
  refine ⟨hoccurs, ?_, fun metric value hvalue => ?_⟩
  · obtain ⟨row, hrow, hk⟩ := hoccurs
    have hsame : (Baselines.totals watched (rowsWith key k rows)).sameMetrics
        ((HasMetrics.metrics row).restrict watched) = true := by
      refine Metrics.sameMetrics_iff.mpr fun metric => ?_
      rw [Metrics.get?_restrict]
      split
      · rw [htotals metric ‹_›, hcounters row (mem_rowsWith.mpr ⟨hrow, hk⟩) metric ‹_›]
      · rw [get?_totals, if_neg ‹_›]
    exact (beq_iff_eq.mp hsame).trans (hrows row hrow hk).1
  · rw [totals, get?_totals] at hvalue
    split at hvalue
    · rename_i hwatched
      refine isNatural_of_total? (fun row hrow value hvalue => ?_) hvalue
      obtain ⟨hrow, hk⟩ := mem_rowsWith.mp hrow
      refine (hrows row hrow hk).2 metric value ?_
      rw [Metrics.get?_restrict, if_pos hwatched, hvalue]
    · cases hvalue

end Tracks

end Batch

/-! ### Stretches of cycles -/

/-- What is reported of a key in each of a number of cycles. -/
def reports (watched : List Metric) (k : κ) : Baselines κ → List (Batch κ) → List (Option Metrics)
  | _, [] => []
  | b, batch :: rest =>
    batch.report? watched k b :: reports watched k ((batch.operation watched).run b) rest

/-- What has been lost of a counter in each of a number of cycles: its value in the cycle before, if
the server has started over in between. -/
def losses (watched : List Metric) (k : κ) (metric : Metric) : Batch κ → List (Batch κ) → List Int
  | _, [] => []
  | earlier, batch :: rest =>
    (if batch.HasRestarted watched k earlier then (earlier.totals watched k).amount metric
      else 0) :: losses watched k metric batch rest

/-- The value for a metric in a report, as a number; zero if nothing is reported. -/
def reportedAmount (metric : Metric) (report : Option Metrics) : Int :=
  (report.map (Metrics.amount · metric)).getD 0

variable {watched : List Metric} {k : κ} {counters : List Metric} {earlier batch : Batch κ}

/-- One cycle reports the difference, and what has been lost. -/
theorem reportedAmount_report? {b : Baselines κ} {metric : Metric}
    (hearlier : earlier.Tracks watched k counters) (h : batch.Tracks watched k counters)
    (hb : b.get? k = some (earlier.totals watched k)) (hwatched : metric ∈ watched) :
    reportedAmount metric (batch.report? watched k b) =
      (batch.totals watched k).amount metric - (earlier.totals watched k).amount metric +
        (if batch.HasRestarted watched k earlier then (earlier.totals watched k).amount metric
        else 0) := by
  obtain ⟨first, hfirst⟩ := exists_head?_rowsWith h.mem_distinctKeys
  have hsame := hearlier.sameMetrics h
  have hamount := amount_reportOf? hb hfirst hsame hwatched
  rw [reportedAmount, Batch.report?, Option.map_map]
  refine hamount.trans ?_
  by_cases hrestarted : batch.HasRestarted watched k earlier
  · have hfallen := (hearlier.hasFallen_iff h).mpr hrestarted
    rw [if_pos hrestarted, Int.sub_add_cancel]
    exact amount_reportedMetrics_of_fallen hwatched hfallen
  · have hgrown := fun hfallen => hrestarted ((hearlier.hasFallen_iff h).mp hfallen)
    rw [if_neg hrestarted, Int.add_zero]
    exact amount_reportedMetrics_of_grown h.natural hearlier.natural hsame hwatched hgrown

/-- A cycle reports natural numbers. -/
theorem isNatural_of_report? {b : Baselines κ} {metrics : Metrics} {metric : Metric}
    {value : Counter} (hearlier : earlier.Tracks watched k counters)
    (h : batch.Tracks watched k counters) (hb : b.get? k = some (earlier.totals watched k))
    (hreport : batch.report? watched k b = some metrics) (hwatched : metric ∈ watched)
    (hvalue : metrics.get? metric = some value) : value.IsNatural := by
  obtain ⟨row, hrow, rfl⟩ := Option.map_eq_some_iff.mp hreport
  obtain ⟨old, first, hold, -, hreport⟩ := reportOf?_eq_some_iff.mp hrow
  obtain rfl := Option.some.inj (hb.symm.trans hold)
  exact hreport.isNatural hearlier.natural h.natural hwatched hvalue

/-- Let a key come up in each of a number of consecutive cycles with natural numbers for the same
counters, in its totals. In each cycle the reports are those of the keys that come up, one after the
other. From the second cycle on natural numbers are reported of the key, and what is reported of a
counter adds up to the difference between its last total and its first, and to what it had before
each cycle in which some counter went down. -/
theorem sum_reports (b : Baselines κ) (first : Batch κ) (rest : List (Batch κ))
    (h : ∀ batch ∈ first :: rest, batch.Tracks watched k counters) :
    (∀ batch ∈ first :: rest, ∀ b : Baselines κ,
      (b.advance watched batch.key batch.rows).1.map HasMetrics.metrics =
        (distinctKeys batch.key batch.rows).filterMap fun k => batch.report? watched k b) ∧
    (∀ metrics, some metrics ∈ reports watched k ((first.operation watched).run b) rest →
      ∀ metric ∈ watched, ∀ value, metrics.get? metric = some value → value.IsNatural) ∧
    ∀ metric ∈ watched,
      ((reports watched k ((first.operation watched).run b) rest).map
          (reportedAmount metric)).sum =
        ((rest.getLastD first).totals watched k).amount metric -
          (first.totals watched k).amount metric + (losses watched k metric first rest).sum := by
  refine ⟨fun batch _ b => ?_, ?_⟩
  · rw [reports_advance, List.map_filterMap]
    rfl
  -- the totals of the cycle before are what is remembered, whatever there was at the start
  induction rest generalizing b first with
  | nil =>
    refine ⟨fun _ hmetrics => (List.not_mem_nil hmetrics).elim, fun metric _ => ?_⟩
    rw [reports, losses, List.getLastD_nil, Int.sub_self]
    rfl
  | cons batch rest ih =>
    have hfirst := h first List.mem_cons_self
    have hbatch := h batch (List.mem_cons_of_mem _ List.mem_cons_self)
    obtain ⟨hnatural, hsum⟩ := ih ((first.operation watched).run b) batch fun batch hmem =>
      h batch (List.mem_cons_of_mem _ hmem)
    have hremembered := hfirst.get?_run b
    refine ⟨fun metrics hmetrics metric hwatched value hvalue => ?_, fun metric hwatched => ?_⟩
    · rw [reports, List.mem_cons] at hmetrics
      rcases hmetrics with hreport | hmetrics
      · exact isNatural_of_report? hfirst hbatch hremembered hreport.symm hwatched hvalue
      · exact hnatural metrics hmetrics metric hwatched value hvalue
    · have hstep := reportedAmount_report? hfirst hbatch hremembered hwatched
      have hrest := hsum metric hwatched
      rw [reports, losses, List.map_cons, List.sum_cons, List.sum_cons, List.getLastD_cons, hstep,
        hrest]
      omega

/-! ### A restart -/

/-- A statement with numbers of calls and rows. -/
def countedStatement (calls rows : Int64) : Statement where
  query := "SELECT"
  database := none
  role := none
  queryId := none
  metrics := (Metrics.empty.set .calls (.whole calls)).set .rows (.whole rows)

/-- A cycle that finds this statement. -/
def countedBatch (calls rows : Int64) : Batch Unit where
  key _ := ()
  rows := [countedStatement calls rows]

theorem get?_countedStatement (calls rows : Int64) (metric : Metric) :
    (HasMetrics.metrics (countedStatement calls rows)).get? metric =
      if metric = .rows then some (.whole rows)
      else if metric = .calls then some (.whole calls) else none := by
  have hcounters : HasMetrics.metrics (countedStatement calls rows) =
      (Metrics.empty.set .calls (.whole calls)).set .rows (.whole rows) := rfl
  rw [hcounters, Metrics.get?_set, Metrics.get?_set, Metrics.get?_empty]

theorem tracks_countedBatch {calls rows : Int64} (hcalls : 0 ≤ calls.toInt)
    (hrows : 0 ≤ rows.toInt) :
    (countedBatch calls rows).Tracks [.calls, .rows] () [.calls, .rows] := by
  refine .of_rows ⟨_, List.mem_singleton_self _, rfl⟩ fun row hrow _ => ⟨?_, ?_⟩
  · obtain rfl := List.mem_singleton.mp hrow
    simp only [Metrics.present, Metrics.get?_restrict, get?_countedStatement]
    rfl
  · obtain rfl := List.mem_singleton.mp hrow
    intro metric value hvalue
    rw [Metrics.get?_restrict, get?_countedStatement] at hvalue
    split_ifs at hvalue
    · obtain rfl := Option.some.inj hvalue
      exact hrows
    · obtain rfl := Option.some.inj hvalue
      exact hcalls

/-- The calls go down once, and so all rows are reported again: nine rows before, of which seven
have been there from the start, and ten afterwards. -/
theorem sum_reports_countedBatch :
    ((reports [.calls, .rows] ()
        ((countedBatch 5 7).operation [.calls, .rows] |>.run .empty)
        [countedBatch 8 9, countedBatch 2 9, countedBatch 2 10]).map
      (reportedAmount .rows)).sum = 10 - 7 + 9 := by
  have htracks : ∀ batch ∈
      [countedBatch 5 7, countedBatch 8 9, countedBatch 2 9, countedBatch 2 10],
      batch.Tracks [.calls, .rows] () [.calls, .rows] := by
    simp only [List.forall_mem_cons]
    exact ⟨tracks_countedBatch (by decide) (by decide), tracks_countedBatch (by decide) (by decide),
      tracks_countedBatch (by decide) (by decide), tracks_countedBatch (by decide) (by decide),
      nofun⟩
  obtain ⟨-, -, hsum⟩ := sum_reports .empty (countedBatch 5 7) _ htracks
  rw [hsum .rows (by decide)]
  decide +kernel

end Baselines

end QueryTelemetry
