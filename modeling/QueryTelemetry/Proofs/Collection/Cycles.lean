import Mathlib.Algebra.Ring.Int.Defs
import QueryTelemetry.Proofs.Baselines.Growth
import QueryTelemetry.Proofs.Collection.Recorder
import QueryTelemetry.Proofs.Collection.Retrieval

/-!
# What a cycle does to the baselines

A cycle may end before the totals are compared, and then it leaves the baselines alone and sends
nothing. Otherwise the baselines advance once, whatever becomes of the events. Either the metrics
are accepted with all the growth, or the cycle fails and none of them is
(`recordCycle_of_compared`).

In a run each cycle may find its source and its sink in any state.
-/

namespace QueryTelemetry

/-! ### Amounts -/

/-- The identity that a row of metrics belongs to. -/
def MetricsRow.identity (row : MetricsRow) : Identity := ⟨row.fingerprint, row.database, row.role⟩

/-- What events report of a metric of an identity, in total. -/
def reported (k : Identity) (metric : Metric) (events : List Event) : Int :=
  (events.map fun
    | .text _ => 0
    | .metrics event =>
      ((event.rows.filter fun row => row.identity = k).map fun row =>
        row.metrics.amount metric).sum).sum

/-- What statements have of a metric of an identity, in total. -/
def amountOf (k : Identity) (metric : Metric) (statements : List NormalStatement) : Int :=
  ((statements.filter fun s => s.identity = k).map fun s => s.statement.metrics.amount metric).sum

section

variable (k : Identity) (metric : Metric)

theorem reported_append (events more : List Event) :
    reported k metric (events ++ more) = reported k metric events + reported k metric more := by
  rw [reported, List.map_append, List.sum_append]
  rfl

theorem reported_texts (texts : List TextEvent) : reported k metric (texts.map .text) = 0 := by
  induction texts with
  | nil => rfl
  | cons text texts ih => exact (Int.zero_add _).trans ih

/-- The rows of metrics report what the statements have. -/
theorem reported_metrics {event : MetricsEvent} {growth : List NormalStatement}
    (h : event.rows = growth.map MetricsRow.ofStatement) :
    reported k metric [.metrics event] = amountOf k metric growth := by
  have hrows : (event.rows.filter fun row => row.identity = k).map (fun row =>
      row.metrics.amount metric) =
      (growth.filter fun s => s.identity = k).map fun s => s.statement.metrics.amount metric := by
    rw [h, List.filter_map, List.map_map]
    rfl
  rw [reported, List.map_singleton, List.sum_singleton, amountOf, ← hrows]

end

/-! ### Runs -/

/-- The surroundings of a cycle: the time, and the states of the source and the sink. -/
structure Cycle (σ τ : Type) where
  now : Instant
  timestamp : Float
  source : σ
  sink : τ

/-- What is known about a cycle afterwards. -/
structure CycleRecord where
  /-- The statements whose totals have been compared, if the cycle has come to that. -/
  compared : Option (List NormalStatement)
  outcome : CycleOutcome
  /-- The events that the sink has accepted. -/
  accepted : List Event

namespace Collector

variable {σ τ : Type} [Source σ] [Interruptible σ] [EventSink τ]

/-- The statements whose totals are compared in a cycle, unless it ends before. -/
def compared? (c : Collector) (source : σ) : Option (List NormalStatement) :=
  match ((Inquiry.gather c.settings).run ⟨source, c.columns, [], []⟩).1 with
  | .error _ => none
  | .ok rows =>
    let statements := Redaction.normalStatements c.redact rows
    if statements.isEmpty then none else some statements

/-- The state of the inquiry when a cycle has asked everything. -/
def inquiry (c : Collector) (source : σ) : Inquiry σ :=
  ((Inquiry.gather c.settings).run ⟨source, c.columns, [], []⟩).2

/-- A cycle with a record of its events. -/
def recordCycle (c : Collector) (cycle : Cycle σ τ) : CycleReport σ (Recorder τ) :=
  c.runCycle cycle.now cycle.timestamp cycle.source ⟨cycle.sink, []⟩

/-- Runs cycles one after the other. -/
def runCycles (c : Collector) : List (Cycle σ τ) → List CycleRecord
  | [] => []
  | cycle :: cycles =>
    let report := c.recordCycle cycle
    ⟨c.compared? cycle.source, report.outcome, report.sink.accepted⟩ ::
      report.collector.runCycles cycles

/-! ### One cycle -/

/-- What a cycle asks can end it without anything to report, or because it was asked to stop. -/
theorem outcome_of_gather {settings : Settings} {i : Inquiry σ} {outcome : CycleOutcome}
    (h : ((Inquiry.gather settings).run i).1 = .error outcome) :
    outcome = .noRows ∨ outcome = .cancelled := by
  rw [Inquiry.gather_run_fst] at h
  exact Retrieval.outcome_of_gathered h

/-- A cycle that ends before totals are compared sends nothing, and it has not failed. -/
theorem runCycle_of_not_compared {c : Collector} {source : σ} (h : c.compared? source = none)
    (now : Instant) (timestamp : Float) (sink : τ) :
    ∃ outcome : CycleOutcome, (outcome = .noRows ∨ outcome = .cancelled) ∧
      c.runCycle now timestamp source sink =
        ⟨outcome, (c.inquiry source).diagnostics, (c.inquiry source).log,
          { c with columns := (c.inquiry source).columns }, (c.inquiry source).source, sink⟩ := by
  have hgathered : ∀ outcome,
      ((Inquiry.gather c.settings).run ⟨source, c.columns, [], []⟩).1 = .error outcome →
        outcome = .noRows ∨ outcome = .cancelled := fun _ => outcome_of_gather
  rw [compared?] at h
  rw [runCycle, inquiry]
  generalize (Inquiry.gather c.settings).run ⟨source, c.columns, [], []⟩ = inquiry at h hgathered ⊢
  obtain ⟨gathered, i⟩ := inquiry
  cases gathered with
  | error outcome => exact ⟨outcome, hgathered outcome rfl, rfl⟩
  | ok rows =>
    by_cases hstatements : (Redaction.normalStatements c.redact rows).isEmpty = true
    · refine ⟨.noRows, .inl rfl, ?_⟩
      simp only [if_pos hstatements]
    · simp only [if_neg hstatements] at h
      cases h

/-- A cycle in which totals are compared advances the baselines and ends with the growth. -/
theorem runCycle_of_compared {c : Collector} {source : σ} {statements : List NormalStatement}
    (h : c.compared? source = some statements) (now : Instant) (timestamp : Float) (sink : τ) :
    c.runCycle now timestamp source sink =
      finish now timestamp
        (c.baselines.advance (watchedMetrics statements) NormalStatement.identity statements).1
        { c with
          columns := (c.inquiry source).columns
          baselines := (c.baselines.advance (watchedMetrics statements) NormalStatement.identity
            statements).2 }
        (c.inquiry source) sink := by
  rw [compared?] at h
  rw [runCycle, inquiry]
  generalize (Inquiry.gather c.settings).run ⟨source, c.columns, [], []⟩ = inquiry at h ⊢
  obtain ⟨gathered, i⟩ := inquiry
  cases gathered with
  | error outcome => cases h
  | ok rows =>
    by_cases hstatements : (Redaction.normalStatements c.redact rows).isEmpty = true
    · simp only [if_pos hstatements] at h
      cases h
    · simp only [if_neg hstatements] at h ⊢
      rw [Option.some.inj h]

/-- A cycle that ends before totals are compared leaves the baselines alone and sends nothing. -/
theorem recordCycle_of_not_compared {c : Collector} {cycle : Cycle σ τ}
    (h : c.compared? cycle.source = none) :
    (c.recordCycle cycle).collector.baselines = c.baselines ∧
      (c.recordCycle cycle).sink.accepted = [] := by
  obtain ⟨outcome, -, hcycle⟩ := runCycle_of_not_compared h cycle.now cycle.timestamp
    (⟨cycle.sink, []⟩ : Recorder τ)
  rw [recordCycle, hcycle]
  exact ⟨rfl, rfl⟩

omit [Interruptible σ] in
/-- Ending a cycle does not touch the baselines. -/
theorem baselines_finish (now : Instant) (timestamp : Float) (growth : List NormalStatement)
    (c : Collector) (i : Inquiry σ) (sink : τ) :
    (finish now timestamp growth c i sink).collector.baselines = c.baselines := by
  rw [finish]
  by_cases hgrowth : growth.isEmpty = true
  · rw [if_pos hgrowth]
  · rw [if_neg hgrowth]
    generalize sendEvents c.settings now timestamp growth c.seen i.source sink = delivery
    obtain ⟨sent, seen, source, sink⟩ := delivery
    cases sent <;> rfl

/-- The metrics in a record are the growth, and all of it is reported unless the cycle has failed.
Then nothing is. -/
structure Delivers (growth : List NormalStatement) (report : CycleReport σ (Recorder τ)) :
    Prop where
  of_failed : report.outcome = .failed → ∀ k metric,
    reported k metric report.sink.accepted = 0
  of_not_failed : report.outcome ≠ .failed → ∀ k metric,
    reported k metric report.sink.accepted = amountOf k metric growth
  rows : ∀ event, .metrics event ∈ report.sink.accepted →
    event.rows = growth.map MetricsRow.ofStatement

omit [Interruptible σ] in
theorem delivers_finish (now : Instant) (timestamp : Float) (growth : List NormalStatement)
    (c : Collector) (i : Inquiry σ) (sink : τ) :
    Delivers growth (finish now timestamp growth c i (⟨sink, []⟩ : Recorder τ)) := by
  rw [finish]
  by_cases hgrowth : growth.isEmpty = true
  · rw [if_pos hgrowth]
    obtain rfl := List.isEmpty_iff.mp hgrowth
    refine ⟨fun h => ?_, fun _ _ _ => rfl, fun event h => ?_⟩
    · cases h
    · cases h
  · rw [if_neg hgrowth]
    cases hsend : sendEvents c.settings now timestamp growth c.seen i.source
      (⟨sink, []⟩ : Recorder τ) with
    | mk result rest =>
      obtain ⟨seen, source, recorder⟩ := rest
      obtain ⟨texts, ⟨⟨e, rfl⟩, haccepted⟩ | ⟨sent, event, rfl, hrows, haccepted⟩⟩ :=
        exists_accepted_sendEvents hsend
      · -- some texts have been accepted, but not the metrics
        rw [List.nil_append] at haccepted
        refine ⟨fun _ k metric => ?_, fun h => absurd rfl h, fun event h => ?_⟩
        · exact (congrArg (reported k metric) haccepted).trans (reported_texts k metric texts)
        · simp [haccepted] at h
      · rw [List.nil_append] at haccepted
        refine ⟨fun h => ?_, fun _ k metric => ?_, fun other h => ?_⟩
        · cases h
        · refine (congrArg (reported k metric) haccepted).trans ?_
          rw [reported_append, reported_texts, reported_metrics k metric hrows, Int.zero_add]
        · obtain rfl : other = event := by simpa [haccepted] using h
          exact hrows

/-- A cycle in which totals are compared advances the baselines, and delivers the growth unless it
fails. -/
theorem recordCycle_of_compared {c : Collector} {cycle : Cycle σ τ}
    {statements : List NormalStatement} (h : c.compared? cycle.source = some statements) :
    (c.recordCycle cycle).collector.baselines =
        (c.baselines.advance (watchedMetrics statements) NormalStatement.identity statements).2 ∧
      Delivers
        (c.baselines.advance (watchedMetrics statements) NormalStatement.identity statements).1
        (c.recordCycle cycle) := by
  rw [recordCycle, runCycle_of_compared h]
  exact ⟨baselines_finish _ _ _ _ _ _, delivers_finish _ _ _ _ _ _⟩

/-! ### Failed cycles -/

/-- A sink that refuses nothing takes all full texts. -/
theorem exists_sendTexts_eq_ok
    (haccepts : ∀ event (sink : τ), (EventSink.send event sink).1 = .ok ())
    (context : EventContext) (now : Instant) (statements : List NormalStatement)
    (seen : Sampling.Seen) (sink : τ) :
    ∃ sent, (sendTexts context now statements seen sink).1 = .ok sent := by
  fun_induction sendTexts context now statements seen sink with
  | case1 => exact ⟨0, rfl⟩
  | case2 _ _ sink event _ _ _ _ _ hsend =>
    have hok := haccepts (.text event) sink
    rw [hsend] at hok
    cases hok
  | case3 _ _ _ _ _ _ _ _ _ sent _ _ hrest ih =>
    obtain ⟨count, hcount⟩ := ih
    rw [hrest] at hcount
    obtain rfl : sent = .ok count := hcount
    exact ⟨count + 1, rfl⟩

omit [Interruptible σ] in
theorem outcome_finish_ne_failed
    (haccepts : ∀ event (sink : τ), (EventSink.send event sink).1 = .ok ()) (now : Instant)
    (timestamp : Float) (growth : List NormalStatement) (c : Collector) (i : Inquiry σ) (sink : τ) :
    (finish now timestamp growth c i sink).outcome ≠ .failed := by
  rw [finish]
  by_cases hgrowth : growth.isEmpty = true
  · rw [if_pos hgrowth]
    exact fun h => by cases h
  · rw [if_neg hgrowth]
    have htexts := exists_sendTexts_eq_ok haccepts (eventContext c.settings timestamp) now growth
      c.seen sink
    rw [sendEvents]
    generalize sendTexts (eventContext c.settings timestamp) now growth c.seen sink = sent
      at htexts ⊢
    obtain ⟨result, seen, sink⟩ := sent
    obtain ⟨count, rfl⟩ := htexts
    have hmetrics := haccepts (.metrics (MetricsEvent.ofStatements
      (eventContext c.settings timestamp) c.settings.interval.toSeconds
      (Source.serverVersion i.source).1 growth)) sink
    simp only
    generalize EventSink.send _ sink = delivery at hmetrics ⊢
    obtain ⟨delivered, sink⟩ := delivery
    obtain rfl : delivered = .ok () := hmetrics
    exact fun h => by cases h

/-- With a sink that refuses nothing no cycle fails. -/
theorem outcome_runCycle_ne_failed
    (haccepts : ∀ event (sink : τ), (EventSink.send event sink).1 = .ok ()) (now : Instant)
    (timestamp : Float) (c : Collector) (source : σ) (sink : τ) :
    (c.runCycle now timestamp source sink).outcome ≠ .failed := by
  cases hcompared : c.compared? source with
  | none =>
    obtain ⟨outcome, houtcome, hcycle⟩ := runCycle_of_not_compared hcompared now timestamp sink
    rw [hcycle]
    rcases houtcome with rfl | rfl <;> exact nofun
  | some statements =>
    rw [runCycle_of_compared hcompared]
    exact outcome_finish_ne_failed haccepts _ _ _ _ _ _

/-- With sinks that refuse nothing no cycle of a run fails. -/
theorem outcome_ne_failed_of_mem_runCycles
    (haccepts : ∀ event (sink : τ), (EventSink.send event sink).1 = .ok ()) (c : Collector)
    (cycles : List (Cycle σ τ)) {record : CycleRecord} (h : record ∈ c.runCycles cycles) :
    record.outcome ≠ .failed := by
  have hrecorder : ∀ event (recorder : Recorder τ), (EventSink.send event recorder).1 = .ok () :=
    fun event recorder => by
      rw [← haccepts event recorder.sink, Recorder.isSinkMap_sink event recorder]
  induction cycles generalizing c with
  | nil => cases h
  | cons cycle cycles ih =>
    rw [runCycles, List.mem_cons] at h
    rcases h with rfl | h
    · exact outcome_runCycle_ne_failed hrecorder _ _ _ _ _
    · exact ih _ h

end Collector

end QueryTelemetry
