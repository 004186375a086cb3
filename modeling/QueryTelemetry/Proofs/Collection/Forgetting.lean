import QueryTelemetry.Proofs.Collection.Absorption
import QueryTelemetry.Proofs.Collection.Conservation

/-!
# Identities that are forgotten

Behind rows with statements exactly the identities of these statements are remembered
(`contains_absorb`), and what is not remembered is not reported (`contains_of_mem_absorb`). So an
identity that is absent from such rows is not reported again before it has come up once more
(`next_forgets`).

Rows without statements are no comparison: nothing is forgotten for them.
-/

namespace QueryTelemetry

/-! ### One comparison -/

namespace Baselines

variable {κ ρ : Type} [DecidableEq κ] [HasMetrics ρ]

/-- The keys of the rows are remembered, and no others. -/
theorem contains_advance (watched : List Metric) (key : ρ → κ) (rows : List ρ) (b : Baselines κ)
    (k : κ) : (b.advance watched key rows).2.contains k = true ↔ ∃ row ∈ rows, key row = k := by
  have hget := get?_run (.advance watched key rows) b k
  rw [Operation.run, Operation.remembered?] at hget
  rw [contains, hget, ← mem_distinctKeys]
  split <;> simp_all

/-- Only identities that have been remembered are reported. -/
theorem contains_of_mem_advance {watched : List Metric} {statements : List NormalStatement}
    {b : Baselines Identity} {s : NormalStatement}
    (h : s ∈ (b.advance watched NormalStatement.identity statements).1) :
    b.contains s.identity = true := by
  obtain ⟨old, -, hold, -⟩ := reportOf?_eq_some_iff.mp (Collector.reportOf?_of_mem_advance h)
  rw [contains, hold]
  rfl

end Baselines

namespace Collector

variable {σ τ : Type} [EventSink τ] {c : Collector} {k : Identity}

/-! ### One fetch -/

/-- The baselines come from the statements of a fetch, if there are any. -/
theorem baselines_absorb (c : Collector) (fetch : Fetch τ) :
    (c.absorb fetch).1.baselines =
      if (c.statementsOf fetch).isEmpty then c.baselines
      else (c.baselines.advance (watchedMetrics (c.statementsOf fetch)) NormalStatement.identity
        (c.statementsOf fetch)).2 := by
  rw [absorb]
  split <;> rfl

/-- Which statements there are in rows does not change. -/
theorem statementsOf_absorb (c : Collector) (fetch other : Fetch τ) :
    (c.absorb fetch).1.statementsOf other = c.statementsOf other := by
  rw [absorb]
  split <;> rfl

/-- An identity is among the statements of a fetch. -/
def Finds (c : Collector) (fetch : Fetch τ) (k : Identity) : Prop :=
  ∃ s ∈ c.statementsOf fetch, s.identity = k

/-- Behind a fetch with statements, their identities are remembered and no others. -/
theorem contains_absorb {fetch : Fetch τ} (h : c.statementsOf fetch ≠ []) (k : Identity) :
    (c.absorb fetch).1.baselines.contains k = true ↔ c.Finds fetch k := by
  rw [baselines_absorb, if_neg (mt List.isEmpty_iff.mp h)]
  exact Baselines.contains_advance _ _ _ _ k

/-- The rows that are handed over are those of the growth. -/
theorem eq_of_mem_dispatch {settings : Settings} {now : Instant} {timestamp : Float}
    {growth : List NormalStatement} {seen : Sampling.Seen} {sink : τ} {rows : List MetricsRow}
    (h : rows ∈ (dispatch settings now timestamp growth seen sink).2) :
    rows = growth.map MetricsRow.ofStatement := by
  rw [dispatch] at h
  split at h
  · cases h
  · split at h
    · cases h
    · exact List.mem_singleton.mp h

/-- Only identities that have been remembered are reported. -/
theorem contains_of_mem_absorb {fetch : Fetch τ} {rows : List MetricsRow} {row : MetricsRow}
    (hrows : rows ∈ (c.absorb fetch).2) (hrow : row ∈ rows) :
    c.baselines.contains row.identity = true := by
  rw [absorb] at hrows
  split at hrows
  · cases hrows
  · rw [eq_of_mem_dispatch hrows] at hrow
    obtain ⟨s, hs, rfl⟩ := List.mem_map.mp hrow
    exact Baselines.contains_of_mem_advance hs

/-! ### Many fetches -/

/-- What is not remembered is not remembered behind a fetch without it either. -/
theorem not_contains_absorb {fetch : Fetch τ} (h : c.baselines.contains k = false)
    (habsent : ¬ c.Finds fetch k) : (c.absorb fetch).1.baselines.contains k = false := by
  by_cases hstatements : c.statementsOf fetch = []
  · rw [baselines_absorb, hstatements]
    exact h
  · exact Bool.eq_false_iff.mpr (mt (contains_absorb hstatements k).mp habsent)

theorem not_contains_absorbAll (h : c.baselines.contains k = false) {fetches : List (Fetch τ)}
    (habsent : ∀ fetch ∈ fetches, ¬ c.Finds fetch k) :
    (c.absorbAll fetches).1.baselines.contains k = false := by
  induction fetches generalizing c with
  | nil => exact h
  | cons fetch fetches ih =>
    rw [List.forall_mem_cons] at habsent
    refine ih (not_contains_absorb h habsent.1) fun other hother => ?_
    rw [Finds, statementsOf_absorb]
    exact habsent.2 other hother

/-! ### Runs -/

variable [Source σ] [Interruptible σ] {cycle : Cycle σ τ} {fetch : Fetch τ}

/-- What is not remembered is not reported in a cycle. -/
theorem identity_ne_of_mem_journal (h : c.baselines.contains k = false) (cycle : Cycle σ τ)
    {rows : List MetricsRow} (hrows : rows ∈ (c.journal cycle).handedRows) {row : MetricsRow}
    (hrow : row ∈ rows) : row.identity ≠ k := by
  cases hfetch : c.fetch? cycle with
  | none =>
    rw [(cycle_of_fetch?_eq_none hfetch).2] at hrows
    cases hrows
  | some fetch =>
    rw [(cycle_of_fetch? hfetch).2] at hrows
    rintro rfl
    exact Bool.eq_false_iff.mp h (contains_of_mem_absorb hrows hrow)

/-- Behind a cycle that has fetched statements, their identities are remembered and no others. An
identity that is not among them is not reported by any later cycle before it has been among the
statements of another one. A cycle that has fetched rows without statements forgets nothing. -/
theorem next_forgets (h : c.fetch? cycle = some fetch) :
    (c.statementsOf fetch ≠ [] → ∀ k,
      ((c.next cycle).baselines.contains k = true ↔ c.Finds fetch k) ∧
      (¬ c.Finds fetch k → ∀ cycles : List (Cycle σ τ),
        (∀ other ∈ (c.next cycle).fetches cycles, ¬ c.Finds other k) →
        ∀ last : Cycle σ τ, ∀ rows ∈ (((c.next cycle).after cycles).journal last).handedRows,
          ∀ row ∈ rows, row.identity ≠ k)) ∧
    (c.statementsOf fetch = [] → (c.next cycle).baselines = c.baselines) := by
  obtain ⟨⟨columns, hnext⟩, -⟩ := cycle_of_fetch? h
  have hbaselines : (c.next cycle).baselines = (c.absorb fetch).1.baselines := by rw [hnext]
  have hsame : ∀ other : Fetch τ, (c.next cycle).statementsOf other = c.statementsOf other := by
    rw [hnext]
    exact statementsOf_absorb c fetch
  refine ⟨fun hstatements k => ?_, fun hstatements => ?_⟩
  · have hcontains : (c.next cycle).baselines.contains k = true ↔ c.Finds fetch k := by
      rw [hbaselines]
      exact contains_absorb hstatements k
    refine ⟨hcontains, fun habsent cycles hcycles last rows hrows row hrow => ?_⟩
    have hforgotten : (c.next cycle).baselines.contains k = false :=
      Bool.eq_false_iff.mpr (mt hcontains.mp habsent)
    -- the cycles in between may forget and remember others, but they do not find this one
    have hstill : ((c.next cycle).after cycles).baselines.contains k = false := by
      obtain ⟨⟨columns, hafter⟩, -⟩ := (c.next cycle).run_eq_absorbAll cycles
      rw [hafter]
      refine not_contains_absorbAll hforgotten fun other hother => ?_
      rw [Finds, hsame]
      exact hcycles other hother
    exact identity_ne_of_mem_journal hstill last hrows hrow
  · rw [hbaselines, baselines_absorb, hstatements]
    rfl

/-- A row of a statement in a database. -/
def otherRow : ViewRow :=
  ⟨[("query", .text "SELECT"), ("datname", .text "other"), ("calls", .whole 1)]⟩

/-- A statement is forgotten in a cycle that finds it in another database only. -/
theorem next_forgets_called :
    let c := plainCollector.next (calledCycle 1)
    let elsewhere := plainCycle [otherRow]
    c.baselines.contains calledIdentity = true ∧
      (c.next elsewhere).baselines.contains calledIdentity = false ∧
      ∀ rows ∈ ((c.next elsewhere).journal (calledCycle 3)).handedRows,
        ∀ row ∈ rows, row.identity ≠ calledIdentity := by
  intro c elsewhere
  have hfetch : c.fetch? elsewhere = some ⟨[otherRow], 0, 0.0, ⟨⟩⟩ := rfl
  have habsent : ¬ c.Finds (⟨[otherRow], 0, 0.0, ⟨⟩⟩ : Fetch Drain) calledIdentity := by
    rw [Finds]
    decide +kernel
  obtain ⟨hcontains, hlater⟩ := (next_forgets hfetch).1 nofun calledIdentity
  exact ⟨by decide +kernel, Bool.eq_false_iff.mpr (mt hcontains.mp habsent),
    hlater habsent [] nofun (calledCycle 3)⟩

/-- A cycle without rows forgets nothing, and the growth since the cycle before it is reported
afterwards. -/
theorem next_remembers_without_rows :
    let c := plainCollector.next (calledCycle 1)
    let silent := plainCycle []
    c.fetch? silent = some ⟨[], 0, 0.0, ⟨⟩⟩ ∧
      (c.next silent).baselines.contains calledIdentity = true ∧
      ∃ rows ∈ ((c.next silent).journal (calledCycle 3)).handedRows,
        ∃ row ∈ rows, row.identity = calledIdentity ∧ row.metrics.amount .calls = 2 := by
  refine ⟨rfl, ?_, ?_⟩ <;> decide +kernel

end Collector

end QueryTelemetry
