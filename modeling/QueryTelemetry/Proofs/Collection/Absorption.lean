import QueryTelemetry.Proofs.Collection.Cycles
import QueryTelemetry.Proofs.Collection.Journal

/-!
# Runs as sequences of fetches

A cycle that ends early fetches nothing. Any other cycle has a `Fetch`: rows, at a time and with a
sink. `Collector.absorb` says what a collector makes of it, without a source and without regard to
the known columns. A whole run comes to the same as absorbing what its cycles have fetched
(`run_eq_absorbAll`).
-/

namespace QueryTelemetry

/-- What a cycle gets if nothing is in its way: all rows of the statistics, at a time and with a
sink. -/
structure Fetch (τ : Type) where
  rows : List ViewRow
  now : Instant
  timestamp : Float
  sink : τ

namespace Collector

variable {σ τ : Type} {c : Collector} {cycle : Cycle σ τ} {fetch : Fetch τ}

section

variable [Source σ] [Interruptible σ]

/-- What a cycle gets out of its source. -/
def retrieval (c : Collector) (source : σ) : Retrieval :=
  Inquiry.retrieval c.settings ⟨source, c.columns, [], []⟩

/-- What a cycle fetches; none if it ends early. -/
def fetch? (c : Collector) (cycle : Cycle σ τ) : Option (Fetch τ) :=
  match c.retrieval cycle.source with
  | .complete rows => some ⟨rows, cycle.now, cycle.timestamp, cycle.sink⟩
  | _ => none

theorem fetch?_eq_some_iff :
    c.fetch? cycle = some fetch ↔
      c.retrieval cycle.source = .complete fetch.rows ∧
        fetch = ⟨fetch.rows, cycle.now, cycle.timestamp, cycle.sink⟩ := by
  rw [fetch?]
  cases c.retrieval cycle.source with
  | complete rows =>
    constructor
    · intro h
      obtain rfl := Option.some.inj h
      exact ⟨rfl, rfl⟩
    · rintro ⟨hrows, hfetch⟩
      rw [hfetch, Retrieval.complete.inj hrows]
  | _ => simp

theorem fetch?_eq_none_iff :
    c.fetch? cycle = none ↔ ∀ rows, c.retrieval cycle.source ≠ .complete rows := by
  rw [fetch?]
  cases c.retrieval cycle.source <;> simp

end

/-- The normal statements of a fetch. -/
def statementsOf (c : Collector) (fetch : Fetch τ) : List NormalStatement :=
  Redaction.normalStatements c.redact fetch.rows

/-! ### Comparisons -/

section

variable [Source σ] [Interruptible σ]

/-- What a cycle compares, from what it gets out of its source. -/
theorem compared?_eq (c : Collector) (source : σ) :
    c.compared? source =
      match (c.retrieval source).gathered with
      | .error _ => none
      | .ok rows =>
        let statements := Redaction.normalStatements c.redact rows
        if statements.isEmpty then none else some statements := by
  rw [compared?, Inquiry.gather_run_fst]
  rfl

/-- A cycle that ends early compares nothing. -/
theorem compared?_of_fetch?_eq_none (h : c.fetch? cycle = none) :
    c.compared? cycle.source = none := by
  have hrows := fetch?_eq_none_iff.mp h
  rw [compared?_eq]
  cases hretrieval : c.retrieval cycle.source with
  | complete rows => exact absurd hretrieval (hrows rows)
  | _ => rfl

/-- The totals of the statements of a fetch are compared, if there are any statements. -/
theorem compared?_of_fetch? (h : c.fetch? cycle = some fetch) :
    c.compared? cycle.source =
      if (c.statementsOf fetch).isEmpty then none else some (c.statementsOf fetch) := by
  rw [compared?_eq, (fetch?_eq_some_iff.mp h).1, Retrieval.gathered, statementsOf]
  cases fetch.rows <;> rfl

end

variable [EventSink τ]

/-! ### Absorbing fetches -/

/-- What a collector makes of a fetch: what it remembers afterwards, and the rows that the sink is
handed. -/
def absorb (c : Collector) (fetch : Fetch τ) : Collector × List (List MetricsRow) :=
  let statements := c.statementsOf fetch
  if statements.isEmpty then (c, [])
  else
    let (growth, baselines) :=
      c.baselines.advance (watchedMetrics statements) NormalStatement.identity statements
    let (seen, handed) :=
      dispatch c.settings fetch.now fetch.timestamp growth c.seen fetch.sink
    ({ c with baselines, seen }, handed)

/-- What a collector makes of some fetches. -/
def absorbAll (c : Collector) : List (Fetch τ) → Collector × List (List MetricsRow)
  | [] => (c, [])
  | fetch :: fetches =>
    let absorbed := c.absorb fetch
    let rest := absorbed.1.absorbAll fetches
    (rest.1, absorbed.2 ++ rest.2)

/-- The known columns make no difference. -/
theorem absorb_columns (c : Collector) (columns : ColumnCache) (fetch : Fetch τ) :
    ({ c with columns } : Collector).absorb fetch =
      ({ (c.absorb fetch).1 with columns }, (c.absorb fetch).2) := by
  rw [absorb, absorb]
  change (if (c.statementsOf fetch).isEmpty then _ else _) = _
  split <;> rfl

theorem absorbAll_columns (c : Collector) (columns : ColumnCache) (fetches : List (Fetch τ)) :
    ({ c with columns } : Collector).absorbAll fetches =
      ({ (c.absorbAll fetches).1 with columns }, (c.absorbAll fetches).2) := by
  induction fetches generalizing c with
  | nil => rfl
  | cons fetch fetches ih => rw [absorbAll, absorb_columns, ih, absorbAll]

variable [Source σ] [Interruptible σ]

/-! ### One cycle -/

/-- The collector behind a cycle. -/
def next (c : Collector) (cycle : Cycle σ τ) : Collector :=
  (c.runCycle cycle.now cycle.timestamp cycle.source cycle.sink).collector

/-- What the sink of a cycle is handed. -/
def journal (c : Collector) (cycle : Cycle σ τ) : Journal τ :=
  (c.runCycle cycle.now cycle.timestamp cycle.source (Journal.blank cycle.sink)).sink

theorem next_eq_of_journal (c : Collector) (cycle : Cycle σ τ) :
    c.next cycle =
      (c.runCycle cycle.now cycle.timestamp cycle.source
        (Journal.blank cycle.sink)).collector := by
  rw [next, ← Journal.sink_blank cycle.sink, ← runCycle_journal]
  rfl

/-- A cycle that fetches nothing leaves everything as it is, apart from the known columns. -/
theorem cycle_of_fetch?_eq_none (h : c.fetch? cycle = none) :
    (∃ columns, c.next cycle = { c with columns }) ∧
      c.journal cycle = Journal.blank cycle.sink := by
  obtain ⟨outcome, -, hcycle⟩ := runCycle_of_not_compared (compared?_of_fetch?_eq_none h)
    cycle.now cycle.timestamp (Journal.blank cycle.sink)
  rw [next_eq_of_journal, journal, hcycle]
  exact ⟨⟨_, rfl⟩, rfl⟩

/-- Any other cycle absorbs what it has fetched. -/
theorem cycle_of_fetch? (h : c.fetch? cycle = some fetch) :
    (∃ columns, c.next cycle = { (c.absorb fetch).1 with columns }) ∧
      (c.journal cycle).handedRows = (c.absorb fetch).2 := by
  have hcompared := compared?_of_fetch? h
  obtain ⟨-, hfetch⟩ := fetch?_eq_some_iff.mp h
  rw [next_eq_of_journal, journal, absorb]
  by_cases hstatements : (c.statementsOf fetch).isEmpty = true
  · -- rows without statements end the cycle before anything is compared
    rw [if_pos hstatements] at hcompared
    obtain ⟨outcome, -, hcycle⟩ := runCycle_of_not_compared hcompared cycle.now cycle.timestamp
      (Journal.blank cycle.sink)
    rw [if_pos hstatements, hcycle]
    exact ⟨⟨_, rfl⟩, rfl⟩
  · rw [if_neg hstatements] at hcompared
    obtain ⟨hcollector, hhanded⟩ := finish_journal cycle.now cycle.timestamp _ _
      (c.inquiry cycle.source) cycle.sink
    rw [if_neg hstatements, runCycle_of_compared hcompared, hcollector, hhanded, hfetch]
    exact ⟨⟨_, rfl⟩, rfl⟩

/-! ### Runs -/

/-- The collector behind a run. -/
def after (c : Collector) (cycles : List (Cycle σ τ)) : Collector := cycles.foldl next c

/-- The rows that the sinks are handed in a run, one list for each event with metrics. -/
def handedRows (c : Collector) : List (Cycle σ τ) → List (List MetricsRow)
  | [] => []
  | cycle :: cycles => (c.journal cycle).handedRows ++ (c.next cycle).handedRows cycles

/-- What the cycles of a run fetch. -/
def fetches (c : Collector) : List (Cycle σ τ) → List (Fetch τ)
  | [] => []
  | cycle :: cycles => (c.fetch? cycle).toList ++ (c.next cycle).fetches cycles

/-- A run comes to the same as absorbing what its cycles fetch, apart from the known columns. -/
theorem run_eq_absorbAll (c : Collector) (cycles : List (Cycle σ τ)) :
    (∃ columns, c.after cycles = { (c.absorbAll (c.fetches cycles)).1 with columns }) ∧
      c.handedRows cycles = (c.absorbAll (c.fetches cycles)).2 := by
  induction cycles generalizing c with
  | nil => exact ⟨⟨c.columns, rfl⟩, rfl⟩
  | cons cycle cycles ih =>
    obtain ⟨⟨last, hafter⟩, hhanded⟩ := ih (c.next cycle)
    have hrun : c.after (cycle :: cycles) = (c.next cycle).after cycles := rfl
    rw [hrun, hafter, handedRows, hhanded, fetches]
    cases hfetch : c.fetch? cycle with
    | none =>
      obtain ⟨⟨columns, hnext⟩, hjournal⟩ := cycle_of_fetch?_eq_none hfetch
      -- only the known columns have changed, and they make no difference to what is absorbed
      rw [hjournal, Option.toList_none, List.nil_append]
      generalize (c.next cycle).fetches cycles = rest
      rw [hnext, absorbAll_columns]
      exact ⟨⟨last, rfl⟩, rfl⟩
    | some fetch =>
      obtain ⟨⟨columns, hnext⟩, hjournal⟩ := cycle_of_fetch? hfetch
      rw [hjournal, Option.toList_some, List.singleton_append, absorbAll]
      generalize (c.next cycle).fetches cycles = rest
      rw [hnext, absorbAll_columns]
      exact ⟨⟨last, rfl⟩, rfl⟩

end Collector

end QueryTelemetry
