import QueryTelemetry.Proofs.Collection.Conservation

/-!
# Rows of metrics are about intervals

The watched counters of a row that a sink accepts belong to the time since the comparison before:
they are the differences to the totals of that comparison, or the new totals if one of them has gone
down (`isInterval_of_mem_accepted`).

The invariant of a run is that the baselines hold exactly the totals of the last comparison
(`RemembersAll`). Which counters are watched is up to the first statement of a cycle. A counter that
it lacks is not compared (`reports_unwatched_total`).
-/

namespace QueryTelemetry

namespace Collector

open Baselines (rowsWith total? totals)

/-! ### Rows -/

/-- The value of a metric for an identity among statements: that of all its rows added up, if one of
them has any. -/
def merged? (k : Identity) (metric : Metric) (statements : List NormalStatement) : Option Counter :=
  total? metric (rowsWith NormalStatement.identity k statements)

/-- Some watched counter of an identity is less than it was among earlier statements. -/
def HasDropped (watched : List Metric) (k : Identity) (earlier statements : List NormalStatement) :
    Prop :=
  ∃ metric ∈ watched, ∃ now before, merged? k metric statements = some now ∧
    merged? k metric earlier = some before ∧ now.isLess before = true

/-- The watched counters of a row are about the time between earlier statements and the present
ones: each is the difference of the values then and now, where the value has not gone down. If one
of them has, each is the value now. -/
structure IsInterval (watched : List Metric) (earlier statements : List NormalStatement)
    (row : MetricsRow) : Prop where
  of_grown : ¬ HasDropped watched row.identity earlier statements → ∀ metric ∈ watched, ∀ value,
    row.metrics.get? metric = some value →
      ∃ now before, merged? row.identity metric statements = some now ∧
        merged? row.identity metric earlier = some before ∧ now.isLess before = false ∧
        value = now.growth before ∧
        (now.IsNatural → before.IsNatural → value.toInt = now.toInt - before.toInt)
  of_dropped : HasDropped watched row.identity earlier statements → ∀ metric ∈ watched,
    row.metrics.get? metric = merged? row.identity metric statements

variable {watched : List Metric} {k : Identity} {earlier statements : List NormalStatement}

theorem get?_totals_eq_merged? {metric : Metric} (h : metric ∈ watched) :
    (totals watched (rowsWith NormalStatement.identity k statements)).get? metric =
      merged? k metric statements := by
  rw [Baselines.get?_totals, if_pos h, merged?]

theorem merged?_of_get?_totals {metric : Metric} {value : Counter}
    (h : (totals watched (rowsWith NormalStatement.identity k statements)).get? metric =
      some value) : metric ∈ watched ∧ merged? k metric statements = some value := by
  rw [Baselines.get?_totals] at h
  split at h
  · exact ⟨‹_›, h⟩
  · cases h

/-- Totals of the same counters have fallen where a watched counter has. -/
theorem hasFallen_totals_iff {others : List Metric}
    (hsame : ∀ metric,
      ((totals watched (rowsWith NormalStatement.identity k statements)).get? metric).isSome =
        ((totals others (rowsWith NormalStatement.identity k earlier)).get? metric).isSome) :
    (totals watched (rowsWith NormalStatement.identity k statements)).HasFallen
        (totals others (rowsWith NormalStatement.identity k earlier)) ↔
      HasDropped watched k earlier statements := by
  constructor
  · rintro ⟨metric, now, before, hnow, hbefore, hless⟩
    obtain ⟨hwatched, hnow⟩ := merged?_of_get?_totals hnow
    exact ⟨metric, hwatched, now, before, hnow, (merged?_of_get?_totals hbefore).2, hless⟩
  · rintro ⟨metric, hwatched, now, before, hnow, hbefore, hless⟩
    rw [← get?_totals_eq_merged? hwatched] at hnow
    -- what is there now has been there before, with the value that it had among all rows
    have hthere := hsame metric
    rw [hnow, Option.isSome_some] at hthere
    obtain ⟨old, hold⟩ := Option.isSome_iff_exists.mp hthere.symm
    obtain rfl := Option.some.inj ((merged?_of_get?_totals hold).2.symm.trans hbefore)
    exact ⟨metric, now, old, hnow, hold, hless⟩

/-- A report is about the time since the totals that it is compared with. -/
theorem isInterval_of_isReport {others : List Metric} {first report : NormalStatement}
    (hk : report.identity = k)
    (h : Baselines.IsReport watched
      (totals others (rowsWith NormalStatement.identity k earlier))
      (totals watched (rowsWith NormalStatement.identity k statements)) first report) :
    IsInterval watched earlier statements (MetricsRow.ofStatement report) := by
  subst hk
  have hfallen := hasFallen_totals_iff h.same_counters
  refine ⟨fun hgrown metric hwatched value hvalue => ?_, fun hdropped metric hwatched => ?_⟩
  · have hgrown := mt hfallen.mp hgrown
    rw [show (MetricsRow.ofStatement report).metrics.get? metric = _ from
      h.of_grown hgrown metric hwatched, Option.bind_eq_some_iff] at hvalue
    obtain ⟨now, hnow, hvalue⟩ := hvalue
    obtain ⟨before, hbefore, rfl⟩ := Option.map_eq_some_iff.mp hvalue
    have hless : now.isLess before = false := Bool.eq_false_iff.mpr fun hless =>
      hgrown ⟨metric, now, before, hnow, hbefore, hless⟩
    exact ⟨now, before, (merged?_of_get?_totals hnow).2, (merged?_of_get?_totals hbefore).2, hless,
      rfl, fun hnatural hbefore => (Counter.growth_of_isNatural hnatural hbefore hless).2⟩
  · exact (h.of_fallen (hfallen.mpr hdropped) metric hwatched).trans
      (get?_totals_eq_merged? hwatched)

/-! ### Runs -/

/-- The baselines hold the totals of a comparison; none before the first one. -/
def RemembersAll (c : Collector) (previous : Option (List NormalStatement)) : Prop :=
  ∀ k, c.baselines.get? k = previous.bind fun earlier =>
    (Baselines.Operation.advance (watchedMetrics earlier) NormalStatement.identity
      earlier).remembered? k

variable {σ τ : Type} [Source σ] [Interruptible σ] [EventSink τ] {c : Collector}
  {cycle : Cycle σ τ} {previous : Option (List NormalStatement)}

/-- Behind a cycle the baselines hold the totals that have been compared in it, or the same as
before it. -/
theorem RemembersAll.recordCycle (h : RemembersAll c previous) :
    RemembersAll (c.recordCycle cycle).collector ((c.compared? cycle.source).or previous) := by
  intro k
  cases hcompared : c.compared? cycle.source with
  | none =>
    rw [(recordCycle_of_not_compared hcompared).1]
    exact h k
  | some statements =>
    rw [(recordCycle_of_compared hcompared).1]
    exact Baselines.get?_run (.advance _ NormalStatement.identity statements) c.baselines k

/-- The rows that are accepted in a cycle are about the time since the comparison before. -/
theorem RemembersAll.isInterval_of_accepted (h : RemembersAll c previous) {event : MetricsEvent}
    (hevent : .metrics event ∈ (c.recordCycle cycle).sink.accepted) {row : MetricsRow}
    (hrow : row ∈ event.rows) :
    ∃ statements earlier, c.compared? cycle.source = some statements ∧ previous = some earlier ∧
      IsInterval (watchedMetrics statements) earlier statements row := by
  cases hcompared : c.compared? cycle.source with
  | none =>
    rw [(recordCycle_of_not_compared hcompared).2] at hevent
    cases hevent
  | some statements =>
    rw [(recordCycle_of_compared hcompared).2.rows event hevent] at hrow
    obtain ⟨s, hs, rfl⟩ := List.mem_map.mp hrow
    obtain ⟨old, first, hold, -, hreport⟩ :=
      Baselines.reportOf?_eq_some_iff.mp (reportOf?_of_mem_advance hs)
    -- the totals that are compared with are those of the comparison before
    rw [h s.identity, Option.bind_eq_some_iff] at hold
    obtain ⟨earlier, rfl, hold⟩ := hold
    rw [Baselines.Operation.remembered?] at hold
    split at hold
    · obtain rfl := Option.some.inj hold
      exact ⟨statements, earlier, rfl, rfl, isInterval_of_isReport rfl hreport⟩
    · cases hold

theorem getLast?_toList_append {α : Type} (x y : Option α) (xs : List α) :
    ((y.or x).toList ++ xs).getLast? = (x.toList ++ (y.toList ++ xs)).getLast? := by
  cases y with
  | none => rfl
  | some y =>
    cases x with
    | none => rfl
    | some x => exact (List.getLast?_cons_cons).symm

/-- The rows that are accepted in a run of a collector that remembers the comparison before it. -/
theorem RemembersAll.isInterval_of_run (h : RemembersAll c previous) {cycles : List (Cycle σ τ)}
    {before later : List CycleRecord} {record : CycleRecord}
    (hrun : c.runCycles cycles = before ++ record :: later) {event : MetricsEvent}
    (hevent : .metrics event ∈ record.accepted) {row : MetricsRow} (hrow : row ∈ event.rows) :
    ∃ statements earlier, record.compared = some statements ∧
      (previous.toList ++ comparisons before).getLast? = some earlier ∧
      IsInterval (watchedMetrics statements) earlier statements row := by
  -- along the cycles before, the last comparison is either carried on or replaced by a new one
  induction before generalizing c previous cycles with
  | nil =>
    cases cycles with
    | nil => cases hrun
    | cons cycle cycles =>
      obtain ⟨rfl, -⟩ := List.cons.inj hrun
      obtain ⟨statements, earlier, hcompared, rfl, hinterval⟩ :=
        h.isInterval_of_accepted hevent hrow
      exact ⟨statements, earlier, hcompared, rfl, hinterval⟩
  | cons first before ih =>
    cases cycles with
    | nil => cases hrun
    | cons cycle cycles =>
      obtain ⟨rfl, hrest⟩ := List.cons.inj hrun
      rw [comparisons_cons, ← getLast?_toList_append]
      exact ih h.recordCycle hrest

/-- In a run from the beginning, each row of each event with metrics that is accepted is about the
time since the comparison before: there is one, and each watched counter that the row has is the
difference to it, or the value now if some watched counter of the identity has gone down. -/
theorem isInterval_of_mem_accepted (c : Collector) (hc : c.baselines = .empty)
    (cycles : List (Cycle σ τ)) (before later : List CycleRecord) (record : CycleRecord)
    (hrun : c.runCycles cycles = before ++ record :: later) (event : MetricsEvent)
    (hevent : .metrics event ∈ record.accepted) (row : MetricsRow) (hrow : row ∈ event.rows) :
    ∃ statements earlier, record.compared = some statements ∧
      (comparisons before).getLast? = some earlier ∧
      IsInterval (watchedMetrics statements) earlier statements row := by
  have hremembers : RemembersAll c none := fun k => by
    rw [hc]
    rfl
  exact hremembers.isInterval_of_run hrun hevent hrow

/-- An event with metrics that a test on events finds. -/
theorem exists_metrics_of_any {events : List Event} {p : MetricsEvent → Bool}
    (h : events.any (fun | .text _ => false | .metrics event => p event) = true) :
    ∃ event, .metrics event ∈ events ∧ p event = true := by
  obtain ⟨event, hevent, hp⟩ := List.any_eq_true.mp h
  cases event with
  | text event => cases hp
  | metrics event => exact ⟨event, hevent, hp⟩

/-- The calls that are reported between a cycle that finds one and a cycle that finds three are
those of the time between. -/
theorem isInterval_of_mem_accepted_called :
    ∃ first last, plainCollector.runCycles [calledCycle 1, calledCycle 3] = [first, last] ∧
      ∃ event, .metrics event ∈ last.accepted ∧ ∃ row ∈ event.rows,
        IsInterval [.calls] [calledStatement 1] [calledStatement 3] row := by
  obtain ⟨first, last, hrun, hfirst, hlast, hrows⟩ : ∃ first last,
      plainCollector.runCycles [calledCycle 1, calledCycle 3] = [first, last] ∧
        first.compared = some [calledStatement 1] ∧ last.compared = some [calledStatement 3] ∧
        last.accepted.any (fun | .text _ => false | .metrics event => !event.rows.isEmpty) = true :=
    ⟨_, _, rfl, rfl, rfl, by decide +kernel⟩
  obtain ⟨event, hevent, hrows⟩ := exists_metrics_of_any hrows
  obtain ⟨row, hrow⟩ := List.exists_mem_of_ne_nil event.rows (by simpa using hrows)
  obtain ⟨statements, earlier, hcompared, hearlier, hinterval⟩ :=
    isInterval_of_mem_accepted plainCollector rfl _ [first] [] last hrun event hevent row hrow
  obtain rfl := Option.some.inj (hlast.symm.trans hcompared)
  rw [comparisons_cons, hfirst] at hearlier
  obtain rfl := Option.some.inj hearlier
  exact ⟨first, last, hrun, event, hevent, row, hrow, hinterval⟩

/-- A row with a number of calls and nothing else. -/
def callsRow (database : String) (calls : Int64) : ViewRow :=
  ⟨[("query", .text "SELECT"), ("datname", .text database), ("calls", .whole calls)]⟩

/-- A row with numbers of calls and rows. -/
def rowsRow (database : String) (calls rows : Int64) : ViewRow :=
  ⟨[("query", .text "SELECT"), ("datname", .text database), ("calls", .whole calls),
    ("rows", .whole rows)]⟩

/-- If the first statement has no number of rows, then no number of rows is compared. Another
statement, whose calls and rows have both grown, is reported with all the rows since the last reset
of the view instead of those since the cycle before. -/
theorem reports_unwatched_total :
    let k : Identity := ⟨Fingerprint.ofText "SELECT", some "b", none⟩
    let records := plainCollector.runCycles
      [plainCycle [callsRow "a" 5, rowsRow "b" 5 100],
        plainCycle [callsRow "a" 6, rowsRow "b" 8 150]]
    (comparisons records).map (mergedAmount k .calls) = [5, 8] ∧
      (comparisons records).map (mergedAmount k .rows) = [100, 150] ∧
      ∃ record ∈ records, ∃ event, .metrics event ∈ record.accepted ∧ ∃ row ∈ event.rows,
        row.identity = k ∧ row.metrics.amount .rows = 150 := by
  intro k records
  have hreported : ∃ record ∈ records, record.accepted.any (fun
      | .text _ => false
      | .metrics event => event.rows.any fun row =>
        row.identity = k ∧ row.metrics.amount .rows = 150) = true := by decide +kernel
  obtain ⟨record, hrecord, hany⟩ := hreported
  obtain ⟨event, hevent, hrow⟩ := exists_metrics_of_any hany
  obtain ⟨row, hrow, h⟩ := List.any_eq_true.mp hrow
  exact ⟨by decide +kernel, by decide +kernel, record, hrecord, event, hevent, row, hrow,
    of_decide_eq_true h⟩

end Collector

end QueryTelemetry
