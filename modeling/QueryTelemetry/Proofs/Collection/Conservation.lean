import QueryTelemetry.Proofs.Collection.Comparison

/-!
# Growth is reported once

As long as the totals of an identity do not go down, the reports that are accepted for it never add
up to more than the growth of its totals between the first and the last comparison, and only a cycle
that fails can make them add up to less (`reported_runCycles`).

The invariant of a run is that the baselines hold the totals of the comparison before, however the
cycles since then have ended (`recordCycle_compared`). So each comparison accounts for the
difference to the one before it, and the differences add up.
-/

namespace QueryTelemetry

namespace Collector

open Baselines (rowsWith total? totals)

variable {metrics : List Metric} {k : Identity} {statements : List NormalStatement}

/-! ### Runs -/

/-- The statements that have been compared in a run, one list for each comparison. -/
def comparisons (records : List CycleRecord) : List (List NormalStatement) :=
  records.filterMap fun record => record.compared

/-- What the accepted events of a run report of a metric of an identity, in total. -/
def totalReported (k : Identity) (metric : Metric) (records : List CycleRecord) : Int :=
  (records.map fun record => reported k metric record.accepted).sum

theorem comparisons_cons (record : CycleRecord) (records : List CycleRecord) :
    comparisons (record :: records) = record.compared.toList ++ comparisons records := by
  rw [comparisons, List.filterMap_cons]
  cases record.compared <;> rfl

theorem totalReported_cons (k : Identity) (metric : Metric) (record : CycleRecord)
    (records : List CycleRecord) :
    totalReported k metric (record :: records) =
      reported k metric record.accepted + totalReported k metric records := rfl

/-- The difference between the last and the first of some numbers. -/
def gain (values : List Int) : Int := values.getLastD 0 - values.headD 0

theorem gain_singleton (x : Int) : gain [x] = 0 := Int.sub_self x

theorem gain_cons_cons (x y : Int) (values : List Int) :
    gain (x :: y :: values) = (y - x) + gain (y :: values) := by
  have hlast : (x :: y :: values).getLastD 0 = (y :: values).getLastD 0 := rfl
  rw [gain, gain, hlast, List.headD_cons, List.headD_cons]
  omega

variable {σ τ : Type} [Source σ] [Interruptible σ] [EventSink τ]

/-- How much the totals of an identity have grown since the comparison before; nothing is known
before the first. -/
def increase (k : Identity) (metric : Metric) (previous : Option (List NormalStatement))
    (statements : List NormalStatement) : Int :=
  match previous with
  | none => 0
  | some earlier => mergedAmount k metric statements - mergedAmount k metric earlier

/-- The baselines hold the totals that an identity had in the comparison before. -/
def Remembers (metrics : List Metric) (k : Identity) (c : Collector)
    (previous : Option (List NormalStatement)) : Prop :=
  c.baselines.get? k = previous.map fun earlier =>
    totals metrics (rowsWith NormalStatement.identity k earlier)

/-- A cycle that compares totals reports their increase, or nothing if it fails, and in either case
remembers the new ones. -/
theorem recordCycle_compared {c : Collector} {cycle : Cycle σ τ}
    {previous : Option (List NormalStatement)} (hc : Remembers metrics k c previous)
    (hcompared : c.compared? cycle.source = some statements)
    (hprevious : ∀ earlier ∈ previous, IsUniform metrics k earlier)
    (hstatements : IsUniform metrics k statements)
    (hgrows : ∀ earlier ∈ previous, ∀ metric,
      mergedAmount k metric earlier ≤ mergedAmount k metric statements) (metric : Metric) :
    Remembers metrics k (c.recordCycle cycle).collector (some statements) ∧
      0 ≤ increase k metric previous statements ∧
      ((c.recordCycle cycle).outcome = .failed →
        reported k metric (c.recordCycle cycle).sink.accepted = 0) ∧
      ((c.recordCycle cycle).outcome ≠ .failed →
        reported k metric (c.recordCycle cycle).sink.accepted =
          increase k metric previous statements) ∧
      ∀ event, .metrics event ∈ (c.recordCycle cycle).sink.accepted →
        ∀ row ∈ event.rows, row.identity = k → row.metrics.IsNatural := by
  obtain ⟨hbaselines, hdelivers⟩ := recordCycle_of_compared hcompared
  have hincrease : amountOf k metric
      (c.baselines.advance (watchedMetrics statements) NormalStatement.identity statements).1 =
        increase k metric previous statements := by
    cases previous with
    | none => exact amountOf_advance_of_first hstatements hc metric
    | some earlier =>
      exact amountOf_advance (hprevious earlier rfl) hstatements hc (hgrows earlier rfl) metric
  refine ⟨?_, ?_, fun h => hdelivers.of_failed h k metric,
    fun h => (hdelivers.of_not_failed h k metric).trans hincrease, ?_⟩
  · -- the totals are remembered, whether the cycle fails or not
    rw [Remembers, hbaselines, hstatements.watchedMetrics_eq]
    have hrun := Baselines.get?_run
      (.advance metrics NormalStatement.identity statements) c.baselines k
    rwa [Baselines.Operation.remembered?, if_pos hstatements.mem_distinctKeys] at hrun
  · cases previous with
    | none => exact Int.le_refl 0
    | some earlier => exact Int.sub_nonneg_of_le (hgrows earlier rfl metric)
  · intro event hevent row hrow hk
    rw [hdelivers.rows event hevent] at hrow
    obtain ⟨s, hs, rfl⟩ := List.mem_map.mp hrow
    refine isNatural_of_mem_advance hstatements (fun old hold => ?_) hs hk
    rw [hc] at hold
    obtain ⟨earlier, hearlier, rfl⟩ := Option.map_eq_some_iff.mp hold
    exact (hprevious earlier hearlier).isNatural_totals

/-- What is reported in a run of a collector that remembers the comparison before it. -/
theorem totalReported_runCycles (c : Collector) (cycles : List (Cycle σ τ))
    (previous : Option (List NormalStatement))
    (hc : Remembers metrics k c previous)
    (huniform : ∀ statements ∈ previous.toList ++ comparisons (c.runCycles cycles),
      IsUniform metrics k statements)
    (hgrows : (previous.toList ++ comparisons (c.runCycles cycles)).Pairwise
      fun earlier later => ∀ metric, mergedAmount k metric earlier ≤ mergedAmount k metric later)
    (metric : Metric) :
    totalReported k metric (c.runCycles cycles) ≤
      gain ((previous.toList ++ comparisons (c.runCycles cycles)).map (mergedAmount k metric)) ∧
    ((∀ record ∈ c.runCycles cycles, record.outcome ≠ .failed) →
      totalReported k metric (c.runCycles cycles) =
        gain ((previous.toList ++ comparisons (c.runCycles cycles)).map
          (mergedAmount k metric))) ∧
    ∀ record ∈ c.runCycles cycles, ∀ event, .metrics event ∈ record.accepted →
      ∀ row ∈ event.rows, row.identity = k → row.metrics.IsNatural := by
  induction cycles generalizing c previous with
  | nil =>
    have hgain : gain ((previous.toList ++ comparisons []).map (mergedAmount k metric)) = 0 := by
      cases previous with
      | none => rfl
      | some earlier => exact gain_singleton _
    rw [runCycles, hgain]
    exact ⟨Int.le_refl 0, fun _ => rfl, fun record h => by simp at h⟩
  | cons cycle cycles ih =>
    rw [runCycles, comparisons_cons] at huniform hgrows
    rw [runCycles, comparisons_cons, totalReported_cons]
    simp only [List.forall_mem_cons]
    cases hcompared : c.compared? cycle.source with
    | none =>
      -- the cycle counts for nothing, and the same comparison is remembered behind it
      obtain ⟨hbaselines, haccepted⟩ := recordCycle_of_not_compared hcompared
      have hnext : Remembers metrics k (c.recordCycle cycle).collector previous := by
        rw [Remembers, hbaselines]
        exact hc
      rw [hcompared] at huniform hgrows
      obtain ⟨hle, heq, hnatural⟩ := ih _ previous hnext huniform hgrows
      have hnothing : reported k metric (c.recordCycle cycle).sink.accepted = 0 := by
        rw [haccepted]
        rfl
      rw [hnothing, Int.zero_add]
      refine ⟨hle, fun h => heq h.2, fun event hevent => ?_, hnatural⟩
      rw [haccepted] at hevent
      cases hevent
    | some statements =>
      rw [hcompared] at huniform hgrows
      rw [List.pairwise_append] at hgrows
      obtain ⟨-, hlater, hfromEarlier⟩ := hgrows
      obtain ⟨hnext, hincrease, hfailed, hdelivered, hrows⟩ := recordCycle_compared hc hcompared
        (fun earlier h => huniform earlier (List.mem_append_left _ (by simpa using h)))
        (huniform statements (List.mem_append_right _ (by simp)))
        (fun earlier h => hfromEarlier earlier (by simpa using h) statements (by simp)) metric
      obtain ⟨hle, heq, hnatural⟩ := ih _ (some statements) hnext
        (fun later h => huniform later (List.mem_append_right _ h)) hlater
      -- the gain of the run is the increase of this cycle and the gain of those behind it
      have hgain : gain ((previous.toList ++ ((some statements).toList ++
          comparisons ((c.recordCycle cycle).collector.runCycles cycles))).map
            (mergedAmount k metric)) =
          increase k metric previous statements + gain (((some statements).toList ++
            comparisons ((c.recordCycle cycle).collector.runCycles cycles)).map
              (mergedAmount k metric)) := by
        cases previous with
        | none => exact (Int.zero_add _).symm
        | some earlier => exact gain_cons_cons _ _ _
      rw [hgain]
      refine ⟨?_, fun h => ?_, hrows, hnatural⟩
      · by_cases houtcome : (c.recordCycle cycle).outcome = .failed
        · have := hfailed houtcome
          omega
        · have := hdelivered houtcome
          omega
      · have := hdelivered h.1
        have := heq h.2
        omega

/-- A collector begins without known columns and without baselines. -/
theorem columns_and_baselines_of_create
    {redact : (options : String) → String → Except Redaction.Failure Redaction.Redacted}
    {settings : Settings} {c : Collector} (h : create redact settings = .ok c) :
    c.columns = .empty ∧ c.baselines = .empty := by
  rw [create] at h
  split at h
  · cases h
  · obtain rfl := Except.ok.inj h
    exact ⟨rfl, rfl⟩

/-- No growth is reported twice, and none is lost except in cycles that fail. In a run of any cycles
from the beginning, let all statements that are compared have natural numbers for the same metrics,
and let an identity be among them each time, with totals that never decrease. Then what the accepted
metrics report of it is at most the difference between its last and its first totals, and it is all
of it if no cycle fails. -/
theorem reported_runCycles (c : Collector) (hc : c.baselines = .empty) (cycles : List (Cycle σ τ))
    (k : Identity) (metrics : List Metric)
    (huniform : ∀ statements ∈ comparisons (c.runCycles cycles), IsUniform metrics k statements)
    (hgrows : (comparisons (c.runCycles cycles)).Pairwise
      fun earlier later => ∀ metric, mergedAmount k metric earlier ≤ mergedAmount k metric later)
    (metric : Metric) :
    totalReported k metric (c.runCycles cycles) ≤
      gain ((comparisons (c.runCycles cycles)).map (mergedAmount k metric)) ∧
    ((∀ record ∈ c.runCycles cycles, record.outcome ≠ .failed) →
      totalReported k metric (c.runCycles cycles) =
        gain ((comparisons (c.runCycles cycles)).map (mergedAmount k metric))) ∧
    ∀ record ∈ c.runCycles cycles, ∀ event, .metrics event ∈ record.accepted →
      ∀ row ∈ event.rows, row.identity = k → row.metrics.IsNatural := by
  have hremembers : Remembers metrics k c none := by
    rw [Remembers, hc]
    rfl
  exact totalReported_runCycles c cycles none hremembers huniform hgrows metric

/-! ### A run -/

/-- A source that gives the same answer to every query. -/
structure Unvarying where
  answer : QueryResult

instance : Source Unvarying where
  query _ _ source := (.ok source.answer, source)
  serverVersion source := (none, source)

instance : Interruptible Unvarying := ⟨fun _ => true⟩

/-- A sink that takes every event and keeps none. -/
structure Drain where

instance : EventSink Drain := ⟨fun _ sink => (.ok (), sink)⟩

/-- A row of a statement that has been called a number of times. -/
def calledRow (calls : Int64) : ViewRow := ⟨[("query", .text "SELECT"), ("calls", .whole calls)]⟩

/-- The same as a normal statement. -/
def calledStatement (calls : Int64) : NormalStatement where
  statement := ⟨"SELECT", none, none, none, Metrics.empty.set .calls (.whole calls)⟩
  fingerprint := Fingerprint.ofText "SELECT"
  mentions := .none

/-- The identity of that statement. -/
def calledIdentity : Identity := ⟨Fingerprint.ofText "SELECT", none, none⟩

/-- A cycle that finds this row in the view. -/
def calledCycle (calls : Int64) : Cycle Unvarying Drain :=
  ⟨0, 0.0, ⟨⟨["calls", "query", "rows"], [calledRow calls]⟩⟩, ⟨⟩⟩

/-- A cycle that finds some rows in the view. -/
def plainCycle (rows : List ViewRow) : Cycle Unvarying Drain :=
  ⟨0, 0.0, ⟨⟨["calls", "query", "rows"], rows⟩⟩, ⟨⟩⟩

/-- A collector that takes no data out of statements. -/
def plainCollector : Collector where
  settings := .default
  redact text := .ok ⟨text, .none⟩
  columns := .empty
  baselines := .empty
  seen := .empty 1 (Duration.ofWholeSeconds 10)

theorem identity_calledStatement (calls : Int64) :
    (calledStatement calls).identity = calledIdentity := by
  rw [NormalStatement.identity, calledStatement, calledIdentity]

theorem get?_calledStatement (calls : Int64) (metric : Metric) :
    (calledStatement calls).statement.metrics.get? metric =
      if metric = .calls then some (.whole calls) else none := by
  rw [calledStatement, Metrics.get?_set, Metrics.get?_empty]

theorem isUniform_calledStatement {calls : Int64} (h : 0 ≤ calls.toInt) :
    IsUniform [.calls] calledIdentity [calledStatement calls] := by
  refine ⟨fun s hs => ?_, fun s hs => ?_,
    ⟨_, List.mem_singleton_self _, identity_calledStatement calls⟩⟩
  · obtain rfl := List.mem_singleton.mp hs
    simp only [Metrics.present, get?_calledStatement]
    rfl
  · obtain rfl := List.mem_singleton.mp hs
    intro metric value hvalue
    rw [get?_calledStatement] at hvalue
    split at hvalue
    · obtain rfl := Option.some.inj hvalue
      exact h
    · cases hvalue

theorem mergedAmount_calledStatement (calls : Int64) (metric : Metric) :
    mergedAmount calledIdentity metric [calledStatement calls] =
      if metric = .calls then calls.toInt else 0 := by
  have hrows : rowsWith NormalStatement.identity calledIdentity
      [calledStatement calls] = [calledStatement calls] :=
    List.filter_cons_of_pos (decide_eq_true (identity_calledStatement calls))
  have hvalue : total? metric [calledStatement calls] =
      if metric = .calls then some (.whole calls) else none :=
    (Baselines.total?_singleton metric _).trans (get?_calledStatement calls metric)
  rw [mergedAmount, hrows, hvalue]
  split <;> rfl

/-- Between a cycle that finds one call and a cycle that finds three, two calls are reported. -/
theorem reported_runCycles_called :
    totalReported calledIdentity .calls
      (plainCollector.runCycles [calledCycle 1, calledCycle 3]) = 2 := by
  have hcomparisons : comparisons (plainCollector.runCycles [calledCycle 1, calledCycle 3]) =
      [[calledStatement 1], [calledStatement 3]] := rfl
  have huniform : ∀ statements ∈ comparisons
      (plainCollector.runCycles [calledCycle 1, calledCycle 3]),
      IsUniform [.calls] calledIdentity statements := by
    intro statements h
    rw [hcomparisons, List.mem_pair] at h
    rcases h with rfl | rfl
    · exact isUniform_calledStatement (by decide)
    · exact isUniform_calledStatement (by decide)
  have hgrows : (comparisons (plainCollector.runCycles [calledCycle 1, calledCycle 3])).Pairwise
      fun earlier later => ∀ metric,
        mergedAmount calledIdentity metric earlier ≤ mergedAmount calledIdentity metric later := by
    rw [hcomparisons, List.pairwise_pair]
    intro metric
    rw [mergedAmount_calledStatement, mergedAmount_calledStatement]
    split <;> decide
  obtain ⟨-, hall, -⟩ := reported_runCycles plainCollector rfl _ calledIdentity [.calls] huniform
    hgrows .calls
  rw [hall fun record h => outcome_ne_failed_of_mem_runCycles (fun _ _ => rfl) plainCollector _ h,
    hcomparisons]
  simp only [List.map_cons, List.map_nil, mergedAmount_calledStatement]
  rfl

end Collector

end QueryTelemetry
