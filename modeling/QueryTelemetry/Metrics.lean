import QueryTelemetry.Counter

/-!
# The counters of a statement

`Metric` lists the counters that the statistics view may have; which of them it has depends on the
version of the server. `Metrics` holds a value for some of them. All that is known about a
`Metrics` value is what `get?` says about each metric: two of them with the same answers are equal
(`Metrics.ext_get?`), and every operation is described by its answers.
-/

namespace QueryTelemetry

/-- A cumulative counter of the statistics view. -/
inductive Metric
  | calls
  | rows
  /-- The execution time, as it was called before version 13 of the server. -/
  | totalTime
  /-- The execution time, as it is called since version 13 of the server. -/
  | totalExecTime
  | sharedBlksHit
  | sharedBlksRead
  | sharedBlksDirtied
  | sharedBlksWritten
  | localBlksHit
  | localBlksRead
  | localBlksDirtied
  | localBlksWritten
  | tempBlksRead
  | tempBlksWritten
  deriving DecidableEq, Repr

namespace Metric

/-- The number of metrics. -/
abbrev count : Nat := 14

/-- All metrics, in the order in which they are reported. -/
def all : Vector Metric count :=
  #v[calls, rows, totalTime, totalExecTime, sharedBlksHit, sharedBlksRead, sharedBlksDirtied,
    sharedBlksWritten, localBlksHit, localBlksRead, localBlksDirtied, localBlksWritten,
    tempBlksRead, tempBlksWritten]

/-- The place of a metric in that order. -/
def index : Metric → Fin count
  | calls => 0
  | rows => 1
  | totalTime => 2
  | totalExecTime => 3
  | sharedBlksHit => 4
  | sharedBlksRead => 5
  | sharedBlksDirtied => 6
  | sharedBlksWritten => 7
  | localBlksHit => 8
  | localBlksRead => 9
  | localBlksDirtied => 10
  | localBlksWritten => 11
  | tempBlksRead => 12
  | tempBlksWritten => 13

@[simp] theorem getElem_all_index (m : Metric) : all[m.index] = m := by cases m <;> rfl

theorem index_getElem_all (i : Fin count) : all[i].index = i := by
  revert i
  decide

theorem mem_all (m : Metric) : m ∈ all := by cases m <;> simp [all]

/-- The column of the statistics view that holds the metric. -/
def column : Metric → String
  | calls => "calls"
  | rows => "rows"
  | totalTime => "total_time"
  | totalExecTime => "total_exec_time"
  | sharedBlksHit => "shared_blks_hit"
  | sharedBlksRead => "shared_blks_read"
  | sharedBlksDirtied => "shared_blks_dirtied"
  | sharedBlksWritten => "shared_blks_written"
  | localBlksHit => "local_blks_hit"
  | localBlksRead => "local_blks_read"
  | localBlksDirtied => "local_blks_dirtied"
  | localBlksWritten => "local_blks_written"
  | tempBlksRead => "temp_blks_read"
  | tempBlksWritten => "temp_blks_written"

/-- The metric that a column holds. -/
def ofColumn? (name : String) : Option Metric :=
  all.toList.find? fun m => m.column = name

end Metric

/-- Values for some of the metrics. -/
structure Metrics where
  slots : Vector (Option Counter) Metric.count

namespace Metrics

/-- The value for a metric, if there is one. -/
def get? (m : Metrics) (metric : Metric) : Option Counter := m.slots[metric.index]

/-- The values that a function gives. -/
def ofFn (value : Metric → Option Counter) : Metrics :=
  ⟨Vector.ofFn fun i => value Metric.all[i]⟩

@[simp] theorem get?_ofFn (value : Metric → Option Counter) (metric : Metric) :
    (ofFn value).get? metric = value metric := by
  cases metric <;> simp [ofFn, get?] <;> rfl

/-- What the values are is all that matters. -/
theorem ext_get? {a b : Metrics} (h : ∀ metric, a.get? metric = b.get? metric) : a = b := by
  obtain ⟨a⟩ := a
  obtain ⟨b⟩ := b
  congr 1
  ext1 i hi
  have := h Metric.all[(⟨i, hi⟩ : Fin Metric.count)]
  simp only [get?, Metric.index_getElem_all] at this
  exact this

/-- No values. -/
def empty : Metrics := ofFn fun _ => none

@[simp] theorem get?_empty (metric : Metric) : empty.get? metric = none := get?_ofFn _ _

/-- Sets the value for a metric. -/
def set (m : Metrics) (metric : Metric) (value : Counter) : Metrics :=
  ofFn fun other => if other = metric then some value else m.get? other

@[simp] theorem get?_set (m : Metrics) (metric other : Metric) (value : Counter) :
    (m.set metric value).get? other = if other = metric then some value else m.get? other :=
  get?_ofFn _ _

/-- The values for the metrics in the list. -/
def restrict (m : Metrics) (metrics : List Metric) : Metrics :=
  ofFn fun metric => if metric ∈ metrics then m.get? metric else none

@[simp] theorem get?_restrict (m : Metrics) (metrics : List Metric) (metric : Metric) :
    (m.restrict metrics).get? metric = if metric ∈ metrics then m.get? metric else none :=
  get?_ofFn _ _

/-- Adds the values for the metrics in the list. A value that is missing on one side is taken from
the other. -/
def addOn (metrics : List Metric) (a b : Metrics) : Metrics :=
  ofFn fun metric =>
    if metric ∈ metrics then
      match a.get? metric, b.get? metric with
      | some x, some y => some (x.add y)
      | some x, none => some x
      | none, y => y
    else a.get? metric

@[simp] theorem get?_addOn (metrics : List Metric) (a b : Metrics) (metric : Metric) :
    (addOn metrics a b).get? metric =
      if metric ∈ metrics then
        match a.get? metric, b.get? metric with
        | some x, some y => some (x.add y)
        | some x, none => some x
        | none, y => y
      else a.get? metric :=
  get?_ofFn _ _

/-- The metrics that have a value, in order. -/
def present (m : Metrics) : List Metric :=
  Metric.all.toList.filter fun metric => (m.get? metric).isSome

theorem mem_present {m : Metrics} {metric : Metric} :
    metric ∈ m.present ↔ (m.get? metric).isSome = true := by
  simp [present, Metric.mem_all]

/-- The values with their metrics, in order. -/
def toList (m : Metrics) : List (Metric × Counter) :=
  Metric.all.toList.filterMap fun metric => (m.get? metric).map (metric, ·)

end Metrics

end QueryTelemetry
