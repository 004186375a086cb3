import Mathlib.Data.List.Forall2
import QueryTelemetry.Proofs.Collection.Conservation
import QueryTelemetry.Proofs.Collection.Outcome
import QueryTelemetry.Proofs.Sampling.History

/-!
# The events of a cycle belong together

A cycle sends full texts and the metrics of all statements that have grown. The rows of the metrics
have distinct identities, and so have the texts. Each text finds the row of its identity, and the
row begins as the text does (`joins_of_emitted`). Both kinds of events speak of texts that have come
out of redaction, of statements that have been fetched in this very cycle (`IsRedacted`).

All of this is known of the growth (`nodup_identity_advance`, `exists_of_mem_advance`), since texts
and rows are taken from the same statements.
-/

namespace QueryTelemetry

/-! ### Texts of statements -/

/-- A text that has come out of redaction: that of the statement in one of the rows. -/
def IsRedacted (redact : String → Except Redaction.Failure Redaction.Redacted)
    (rows : List ViewRow) (text : String) : Prop :=
  ∃ row ∈ rows, ∃ query redacted, row.text? "query" = some query ∧ redact query = .ok redacted ∧
    redacted.text = text

/-- The text of a normal statement has come out of redaction, and the fingerprint is its own. -/
theorem Redaction.isRedacted_of_mem_normalStatements {redact : String → Except Failure Redacted}
    {rows : List ViewRow} {s : NormalStatement} (h : s ∈ normalStatements redact rows) :
    s.fingerprint = Fingerprint.ofText s.statement.query ∧
      IsRedacted redact rows s.statement.query := by
  obtain ⟨row, hrow, hs⟩ := List.mem_filterMap.mp h
  rw [normalStatement?, Statement.ofRow] at hs
  rcases hquery : row.text? "query" with _ | query
  · simp [hquery] at hs
  rw [hquery] at hs
  rcases hredact : redact query with e | redacted
  · simp [hredact] at hs
  simp only [hredact, Option.some.injEq] at hs
  subst hs
  exact ⟨rfl, row, hrow, query, redacted, hquery, hredact, rfl⟩

namespace Collector

/-! ### Growth -/

variable {watched : List Metric} {statements : List NormalStatement} {b : Baselines Identity}

/-- Each identity is reported once. -/
theorem nodup_identity_advance (watched : List Metric) (statements : List NormalStatement)
    (b : Baselines Identity) :
    ((b.advance watched NormalStatement.identity statements).1.map
      NormalStatement.identity).Nodup := by
  rw [Baselines.reports_advance, List.map_filterMap]
  refine (Baselines.nodup_distinctKeys _ _).filterMap fun k k' identity h h' => ?_
  obtain ⟨s, hs, rfl⟩ := Option.map_eq_some_iff.mp h
  obtain ⟨s', hs', hsame⟩ := Option.map_eq_some_iff.mp h'
  have hk : s.identity = k := identity_of_reportOf? hs
  have hk' : s'.identity = k' := identity_of_reportOf? hs'
  rw [← hk, ← hk', hsame]

/-- What is reported has the text and the fingerprint of one of the statements. -/
theorem exists_of_mem_advance {s : NormalStatement}
    (h : s ∈ (b.advance watched NormalStatement.identity statements).1) :
    ∃ first ∈ statements,
      s.fingerprint = first.fingerprint ∧ s.statement.query = first.statement.query := by
  obtain ⟨old, first, -, hfirst, hreport⟩ :=
    Baselines.reportOf?_eq_some_iff.mp (reportOf?_of_mem_advance h)
  have hmem : first ∈ statements := (Baselines.mem_rowsWith.mp (List.mem_of_mem_head? hfirst)).1
  refine ⟨first, hmem, ?_⟩
  rw [hreport.same_row]
  exact ⟨rfl, rfl⟩

/-! ### Events -/

/-- A row of metrics belongs to a full text: it has the identity of the text and its first
characters. -/
structure Belongs (text : TextEvent) (row : MetricsRow) : Prop where
  identity : row.identity = text.identity
  query : row.query.toList = text.statement.toList.take longestQuery

/-- The row and the text of a statement belong together. -/
theorem belongs_ofStatement (context : EventContext) (s : NormalStatement) :
    Belongs (TextEvent.ofStatement context s) (MetricsRow.ofStatement s) := by
  refine ⟨rfl, ?_⟩
  rw [MetricsRow.ofStatement, truncate, String.toList_ofList]
  rfl

/-- If texts are drawn from statements in order, each belongs to the row of its statement. -/
theorem sublistForall₂_belongs (context : EventContext) {drawn growth : List NormalStatement}
    (h : drawn.Sublist growth) :
    List.SublistForall₂ Belongs (drawn.map (TextEvent.ofStatement context))
      (growth.map MetricsRow.ofStatement) := by
  rw [List.sublistForall₂_map_left_iff, List.sublistForall₂_map_right_iff,
    List.sublistForall₂_iff]
  exact ⟨drawn, List.forall₂_same.mpr fun s _ => belongs_ofStatement context s, h⟩

variable {σ τ : Type} [EventSink τ] [Source σ] [Interruptible σ] {c : Collector}
  {cycle : Cycle σ τ}

/-- A cycle that emits has compared the statements that it has fetched. -/
theorem exists_fetch_of_emitted {rows texts : Nat} (h : c.outcome cycle = .emitted rows texts) :
    ∃ fetch, c.fetch? cycle = some fetch ∧
      c.compared? cycle.source = some (c.statementsOf fetch) := by
  have hcompared : c.compared? cycle.source ≠ none := by
    intro hnone
    obtain ⟨houtcome, -⟩ := outcome_of_not_compared hnone
    rcases houtcome with houtcome | houtcome <;> cases houtcome.symm.trans h
  rcases hfetch : c.fetch? cycle with _ | fetch
  · exact absurd (compared?_of_fetch?_eq_none hfetch) hcompared
  have hstatements := compared?_of_fetch? hfetch
  split at hstatements
  · exact absurd hstatements hcompared
  · exact ⟨fetch, rfl, hstatements⟩

/-- The events of a cycle that emits can be joined. The rows of its metrics have distinct
identities, and so have its full texts. In the same order, each text has a row that belongs to it:
of the same identity, with the first two hundred characters of the text. Every row and every text
has the fingerprint of a full text that has come out of redaction, for the statement in a row that
has been fetched in this cycle; in the case of a row it begins with the characters that the row
shows, in the case of a text it is the text itself. -/
theorem joins_of_emitted (c : Collector) (cycle : Cycle σ τ) (rows texts : Nat)
    (h : c.outcome cycle = .emitted rows texts) :
    ∃ fetch sent event, c.fetch? cycle = some fetch ∧
      (c.journal cycle).entries = Journal.textEntries sent ++ [(.metrics event, .ok ())] ∧
      (event.rows.map MetricsRow.identity).Nodup ∧
      (sent.map TextEvent.identity).Nodup ∧
      List.SublistForall₂ Belongs sent event.rows ∧
      (∀ row ∈ event.rows, ∃ text, row.query.toList = text.toList.take longestQuery ∧
        row.fingerprint = Fingerprint.ofText text ∧ IsRedacted c.redact fetch.rows text) ∧
      ∀ text ∈ sent, text.fingerprint = Fingerprint.ofText text.statement ∧
        IsRedacted c.redact fetch.rows text.statement := by
  obtain ⟨fetch, hfetch, hcompared⟩ := exists_fetch_of_emitted h
  have hsends := sends_of_compared hcompared
  have hnodup := nodup_identity_advance (watchedMetrics (c.statementsOf fetch))
    (c.statementsOf fetch) c.baselines
  have hgrowth : ∀ s ∈ (c.baselines.advance (watchedMetrics (c.statementsOf fetch))
      NormalStatement.identity (c.statementsOf fetch)).1,
      s.fingerprint = Fingerprint.ofText s.statement.query ∧
        IsRedacted c.redact fetch.rows s.statement.query := by
    intro s hs
    obtain ⟨first, hfirst, hfingerprint, hquery⟩ := exists_of_mem_advance hs
    rw [hfingerprint, hquery]
    exact Redaction.isRedacted_of_mem_normalStatements hfirst
  rw [h] at hsends
  generalize (c.baselines.advance _ NormalStatement.identity _).1 = growth
    at hsends hnodup hgrowth
  generalize (c.journal cycle).entries = entries at hsends ⊢
  rcases hsends with _ | _ | @⟨drawn, hdrawn, hne, event, hrows⟩
  refine ⟨fetch, _, event, hfetch, rfl, ?_, ?_, ?_, ?_, ?_⟩
  · rw [hrows, List.map_map]
    exact hnodup
  · rw [List.map_map]
    exact hnodup.sublist (hdrawn.map NormalStatement.identity)
  · rw [hrows]
    exact sublistForall₂_belongs _ hdrawn
  · intro row hrow
    rw [hrows] at hrow
    obtain ⟨s, hs, rfl⟩ := List.mem_map.mp hrow
    obtain ⟨hfingerprint, hredacted⟩ := hgrowth s hs
    have hbelongs := belongs_ofStatement (eventContext c.settings cycle.timestamp) s
    exact ⟨s.statement.query, hbelongs.query, hfingerprint, hredacted⟩
  · intro text htext
    obtain ⟨s, hs, rfl⟩ := List.mem_map.mp htext
    exact hgrowth s (hdrawn.subset hs)

/-- A cycle that finds two more calls than the one before it emits a row and a full text, and they
belong together. -/
theorem joins_of_emitted_called :
    let c := plainCollector.next (calledCycle 1)
    c.outcome (calledCycle 3) = .emitted 1 1 ∧
      ∃ sent event, (c.journal (calledCycle 3)).entries =
          Journal.textEntries sent ++ [(.metrics event, .ok ())] ∧
        List.SublistForall₂ Belongs sent event.rows ∧
        ∀ text ∈ sent, IsRedacted plainCollector.redact [calledRow 3] text.statement := by
  intro c
  have houtcome : c.outcome (calledCycle 3) = .emitted 1 1 := by decide +kernel
  have hrows : c.fetch? (calledCycle 3) = some ⟨[calledRow 3], 0, 0.0, ⟨⟩⟩ := rfl
  obtain ⟨fetch, sent, event, hfetch, hentries, -, -, hjoined, -, htexts⟩ :=
    joins_of_emitted c (calledCycle 3) 1 1 houtcome
  obtain rfl := Option.some.inj (hrows.symm.trans hfetch)
  exact ⟨houtcome, sent, event, hentries, hjoined, fun text htext => (htexts text htext).2⟩

end Collector

end QueryTelemetry
