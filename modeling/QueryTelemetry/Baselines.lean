import QueryTelemetry.Statement

/-!
# From totals to growth

The statistics view holds totals since its last reset. `Baselines` remembers the totals of the
last cycle, and `Baselines.advance` turns the totals of a new one into growth:

* rows with the same key are added up first;
* a key that is new, or whose set of counters has changed, reports nothing;
* if a counter has gone down, the server has started over, and the totals are the growth;
* growth of zero in all counters is not reported;
* keys that are absent are forgotten.
-/

namespace QueryTelemetry

/-- Rows that carry counters. Changing the counters leaves everything else about a row alone. -/
class HasMetrics (ρ : Type) where
  metrics : ρ → Metrics
  withMetrics : ρ → Metrics → ρ
  metrics_withMetrics : ∀ row m, metrics (withMetrics row m) = m
  withMetrics_metrics : ∀ row, withMetrics row (metrics row) = row
  withMetrics_withMetrics : ∀ row m m', withMetrics (withMetrics row m) m' = withMetrics row m'

instance : HasMetrics Statement where
  metrics := Statement.metrics
  withMetrics row m := { row with metrics := m }
  metrics_withMetrics _ _ := rfl
  withMetrics_metrics _ := rfl
  withMetrics_withMetrics _ _ _ := rfl

instance : HasMetrics NormalStatement where
  metrics row := row.statement.metrics
  withMetrics row m := { row with statement := { row.statement with metrics := m } }
  metrics_withMetrics _ _ := rfl
  withMetrics_metrics _ := rfl
  withMetrics_withMetrics _ _ _ := rfl

namespace Metrics

/-- The totals against which growth can be measured: the same counters have to be there. -/
def sameMetrics (a b : Metrics) : Bool := a.present == b.present

/-- Whether some counter is less than it was. -/
def hasFallen (totals old : Metrics) : Bool :=
  totals.present.any fun metric =>
    match totals.get? metric, old.get? metric with
    | some now, some before => now.isLess before
    | _, _ => false

/-- Replaces the counters that `totals` has by their growth since `old`. -/
def replaceByGrowth (m totals old : Metrics) : Metrics :=
  ofFn fun metric =>
    match totals.get? metric, old.get? metric with
    | some now, some before => some (now.growth before)
    | _, _ => m.get? metric

/-- The counters of a row as growth since `old`, where `totals` are those of its counters that are
watched; none if the totals cannot be compared. -/
def since? (m totals old : Metrics) : Option Metrics :=
  if totals.sameMetrics old then
    some (if totals.hasFallen old then m else m.replaceByGrowth totals old)
  else none

/-- Whether all of the given counters that are there are zero. -/
def allZero (m : Metrics) (watched : List Metric) : Bool :=
  watched.all fun metric =>
    match m.get? metric with
    | some value => value.isZero
    | none => true

end Metrics

/-- The totals of the last cycle. -/
structure Baselines (κ : Type) where
  entries : List (κ × Metrics)

namespace Baselines

variable {κ ρ : Type} [DecidableEq κ] [HasMetrics ρ]

/-- Nothing is remembered. -/
def empty : Baselines κ := ⟨[]⟩

/-- The number of keys that are remembered. -/
def size (b : Baselines κ) : Nat := b.entries.length

/-- The totals remembered for a key. -/
def get? (b : Baselines κ) (key : κ) : Option Metrics := b.entries.lookup key

/-- Whether a key is remembered. -/
def contains (b : Baselines κ) (key : κ) : Bool := (b.get? key).isSome

/-! ### Rows with the same key -/

/-- Adds a row to the rows so far: its watched counters to the row with the same key, or the row
itself at the end. -/
def mergeRow (watched : List Metric) (key : κ) (row : ρ) : List (κ × ρ) → List (κ × ρ)
  | [] => [(key, row)]
  | (other, first) :: rest =>
    if other = key then
      (other, HasMetrics.withMetrics first
        (Metrics.addOn watched (HasMetrics.metrics first) (HasMetrics.metrics row))) :: rest
    else (other, first) :: mergeRow watched key row rest

/-- One row for each key, in the order in which the keys come up. It is the first row with the key,
with the watched counters of all of them added up. -/
def merge (watched : List Metric) (key : ρ → κ) (rows : List ρ) : List (κ × ρ) :=
  rows.foldl (fun merged row => mergeRow watched (key row) row merged) []

/-- A key is there after a row has been added if it was there before or is the row's. -/
theorem mem_keys_mergeRow (watched : List Metric) (key k : κ) (row : ρ) (merged : List (κ × ρ)) :
    k ∈ (mergeRow watched key row merged).map (·.1) ↔ k = key ∨ k ∈ merged.map (·.1) := by
  induction merged with
  | nil => simp [mergeRow]
  | cons first rest ih =>
    simp only [mergeRow]
    split
    · rename_i h
      subst h
      simp
    · simp only [List.map_cons, List.mem_cons, ih]
      exact or_left_comm

/-- Adding a row leaves the keys distinct. -/
theorem nodup_keys_mergeRow (watched : List Metric) (key : κ) (row : ρ) {merged : List (κ × ρ)}
    (h : (merged.map (·.1)).Nodup) : ((mergeRow watched key row merged).map (·.1)).Nodup := by
  induction merged with
  | nil => simp [mergeRow]
  | cons first rest ih =>
    simp only [List.map_cons, List.nodup_cons] at h
    simp only [mergeRow]
    split
    · simpa using h
    · rename_i different
      simp only [List.map_cons, List.nodup_cons]
      refine ⟨fun member => ?_, ih h.2⟩
      rcases (mem_keys_mergeRow watched key first.1 row rest).1 member with same | member
      · exact different same
      · exact h.1 member

/-! ### A cycle -/

/-- The report of a merged row: nothing unless there are totals to compare with and some counter
has grown. -/
def report? (watched : List Metric) (b : Baselines κ) (key : κ) (row : ρ) : Option ρ := do
  let m := HasMetrics.metrics row
  let old ← b.get? key
  let growth ← m.since? (m.restrict watched) old
  if growth.allZero watched then none else some (HasMetrics.withMetrics row growth)

/-- Turns the rows of a cycle into growth, and remembers their totals instead of the old ones. -/
def advance (watched : List Metric) (key : ρ → κ) (rows : List ρ) (b : Baselines κ) :
    List ρ × Baselines κ :=
  let merged := merge watched key rows
  (merged.filterMap fun (key, row) => report? watched b key row,
    ⟨merged.map fun (key, row) => (key, (HasMetrics.metrics row).restrict watched)⟩)

end Baselines

end QueryTelemetry
