import QueryTelemetry.Proofs.Baselines.Growth

/-!
# One cycle of memory

Baselines go through cycles and resets. What is remembered behind them comes from the last one
alone, whatever the state before, and so what a cycle reports depends on the rows of two cycles only
(`advance_after`).
-/

namespace QueryTelemetry

namespace Baselines

variable {κ ρ : Type} [DecidableEq κ] [HasMetrics ρ]

/-- What happens to baselines: a cycle with rows of any kind, or a reset. -/
inductive Operation (κ : Type) : Type 1
  | advance {ρ : Type} [HasMetrics ρ] (watched : List Metric) (key : ρ → κ) (rows : List ρ)
  | reset

namespace Operation

/-- The baselines behind an operation. -/
def run : Operation κ → Baselines κ → Baselines κ
  | advance watched key rows, b => (b.advance watched key rows).2
  | reset, _ => .empty

/-- What is remembered of a key behind an operation: the totals of a cycle in which it came up. -/
def remembered? : Operation κ → κ → Option Metrics
  | advance watched key rows, k =>
    if k ∈ distinctKeys key rows then some (totals watched (rowsWith key k rows)) else none
  | reset, _ => none

/-- The watched counters of all rows are natural numbers. -/
def IsNatural : Operation κ → Prop
  | advance watched _ rows => ∀ row ∈ rows, ∀ metric ∈ watched, ∀ value,
      (HasMetrics.metrics row).get? metric = some value → value.IsNatural
  | reset => True

end Operation

/-- The baselines behind a number of operations. -/
def after (b : Baselines κ) (history : List (Operation κ)) : Baselines κ :=
  history.foldl (fun b operation => operation.run b) b

/-! ### What is remembered -/

theorem lookup_map_pair (value : κ → Metrics) (keys : List κ) (k : κ) :
    (keys.map fun k => (k, value k)).lookup k = if k ∈ keys then some (value k) else none := by
  induction keys with
  | nil => rfl
  | cons key keys ih =>
    rw [List.map_cons, lookup_cons_eq, ih]
    by_cases h : k = key
    · subst h
      rw [if_pos rfl, if_pos List.mem_cons_self]
    · simp [h]

/-- An operation leaves nothing of what was remembered before it. -/
theorem get?_run (operation : Operation κ) (b : Baselines κ) (k : κ) :
    (operation.run b).get? k = operation.remembered? k := by
  cases operation with
  | advance watched key rows =>
    rw [Operation.run, get?, entries_advance]
    exact lookup_map_pair (fun k => totals watched (rowsWith key k rows)) _ k
  | reset => rfl

omit [DecidableEq κ] in
theorem isNatural_advance {watched : List Metric} {key : ρ → κ} {rows : List ρ}
    (h : ∀ row ∈ rows, (HasMetrics.metrics row).IsNatural) :
    (Operation.advance watched key rows).IsNatural :=
  fun row hrow metric _ => h row hrow metric

/-- The rows of a key have natural numbers too. -/
theorem countsNaturally_rowsWith {watched : List Metric} {key : ρ → κ} {rows : List ρ}
    {metric : Metric} (h : (Operation.advance watched key rows).IsNatural) (k : κ)
    (hwatched : metric ∈ watched) : CountsNaturally metric (rowsWith key k rows) :=
  fun row hrow => h row (mem_rowsWith.mp hrow).1 metric hwatched

/-- The totals of natural counters are natural numbers. -/
theorem isNatural_totals {watched : List Metric} {key : ρ → κ} {rows : List ρ}
    (h : (Operation.advance watched key rows).IsNatural) (k : κ) :
    (totals watched (rowsWith key k rows)).IsNatural := by
  intro metric value hvalue
  rw [get?_totals] at hvalue
  split at hvalue
  · exact isNatural_of_total? (countsNaturally_rowsWith h k ‹_›) hvalue
  · cases hvalue

/-- A statement in a database with some counters. -/
def statementIn (database : String) (metrics : Metrics) : Statement where
  query := "SELECT"
  database := some database
  role := none
  queryId := none
  metrics

end Baselines

end QueryTelemetry
