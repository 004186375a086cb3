import QueryTelemetry.Proofs.Collection.Absorption
import QueryTelemetry.Proofs.Collection.Conservation

/-!
# Cycles that end early leave no trace

A cycle that is stopped, or does not get its columns or its rows, may change what is known of the
columns, and the source and the diagnostics. What the collector remembers of statements stays as it
is, and the sink is handed nothing. So such cycles may as well be left out of a run, as long as the
others fetch the same (`run_of_fetches_eq`).
-/

namespace QueryTelemetry

namespace Collector

variable {σ τ : Type} [Source σ] [Interruptible σ] [EventSink τ]

/-- A cycle that ends early leaves the baselines and the texts that have been seen as they are, and
hands nothing to the sink. Two runs whose cycles fetch the same, apart from cycles that end early
and fetch nothing, hand the same rows to their sinks and remember the same in the end. The sources
may be in other states in the two runs, and other columns may be known. -/
theorem run_of_fetches_eq (c : Collector) :
    (∀ cycle : Cycle σ τ, (∀ rows, c.retrieval cycle.source ≠ .complete rows) →
      (c.next cycle).baselines = c.baselines ∧ (c.next cycle).seen = c.seen ∧
        c.journal cycle = Journal.blank cycle.sink) ∧
    ∀ cycles kept : List (Cycle σ τ), c.fetches kept = c.fetches cycles →
      c.handedRows kept = c.handedRows cycles ∧
        (c.after kept).seen = (c.after cycles).seen ∧
        (c.after kept).baselines = (c.after cycles).baselines := by
  constructor
  · intro cycle hcycle
    obtain ⟨⟨columns, hnext⟩, hjournal⟩ := cycle_of_fetch?_eq_none (fetch?_eq_none_iff.mpr hcycle)
    rw [hnext]
    exact ⟨rfl, rfl, hjournal⟩
  · intro cycles kept hfetches
    obtain ⟨⟨columns, hafter⟩, hhanded⟩ := c.run_eq_absorbAll cycles
    obtain ⟨⟨keptColumns, hkeptAfter⟩, hkeptHanded⟩ := c.run_eq_absorbAll kept
    rw [hhanded, hkeptHanded, hafter, hkeptAfter, hfetches]
    exact ⟨rfl, rfl, rfl⟩

/-- A source that has one answer to every query, and may have asked the collector to stop. -/
structure Steady where
  answer : Except QueryError QueryResult
  running : Bool

instance : Source Steady where
  query _ _ source := (source.answer, source)
  serverVersion source := (none, source)

instance : Interruptible Steady := ⟨Steady.running⟩

/-- A cycle that finds a source in some state. -/
def steadyCycle (source : Steady) : Cycle Steady Drain := ⟨0, 0.0, source, ⟨⟩⟩

/-- The answer with a row of a statement that has been called a number of times. -/
def calledAnswer (calls : Int64) : Steady :=
  ⟨.ok ⟨["calls", "query", "rows"], [calledRow calls]⟩, true⟩

/-- A cycle that is stopped and a cycle whose query is refused can be left out between two others,
although the columns have to be found out anew behind them. -/
theorem run_of_fetches_eq_called :
    let stopped := steadyCycle ⟨.ok ⟨[], []⟩, false⟩
    let refused := steadyCycle ⟨.error ⟨.programming, "no such column"⟩, true⟩
    let kept := [steadyCycle (calledAnswer 1), steadyCycle (calledAnswer 3)]
    let cycles := [steadyCycle (calledAnswer 1), stopped, refused, steadyCycle (calledAnswer 3)]
    plainCollector.journal stopped = Journal.blank ⟨⟩ ∧
      plainCollector.fetches kept = plainCollector.fetches cycles ∧
      plainCollector.handedRows kept = plainCollector.handedRows cycles := by
  intro stopped refused kept cycles
  have hfetches : plainCollector.fetches kept = plainCollector.fetches cycles := rfl
  exact ⟨((run_of_fetches_eq plainCollector).1 stopped fun _ => nofun).2.2, hfetches,
    ((run_of_fetches_eq plainCollector).2 cycles kept hfetches).1⟩

end Collector

end QueryTelemetry
