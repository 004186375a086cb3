import QueryTelemetry.Proofs.Collection.Discovery
import QueryTelemetry.Proofs.ServerVersion

/-!
# Versions and the query for the number of statements

A cycle that has got rows asks for the version of the server, and then for the number of statements
in the words that a server of this version understands (`countsAsked_transcript`). Versions are in
the order of their numbers, so a server is asked for the texts as well exactly if its number is
smaller than that of the first version that can leave them out (`countsAsked_of_number`).
-/

namespace QueryTelemetry

namespace Inquiry

/-- The versions that cannot leave the texts out are those before the first one that can. -/
theorem countQueryFor_eq_iff {version : Option ServerVersion} :
    countQueryFor version = Catalog.countQueryWithTexts ↔
      ∃ v, version = some v ∧ v.key < firstWithoutTexts.key := by
  have hne : Catalog.countQuery ≠ Catalog.countQueryWithTexts := by decide +kernel
  rcases version with _ | v
  · exact iff_of_false hne fun ⟨v, hv, _⟩ => nomatch hv
  · have hbefore : v.isBefore firstWithoutTexts = true ↔ v.key < firstWithoutTexts.key :=
      ServerVersion.isBefore_iff
    rw [countQueryFor]
    split
    · exact iff_of_true rfl ⟨v, rfl, hbefore.mp ‹_›⟩
    · refine iff_of_false hne ?_
      rintro ⟨w, hw, hlt⟩
      obtain rfl := Option.some.inj hw
      exact absurd (hbefore.mpr hlt) ‹_›

/-- By the number of the server. -/
theorem countQueryFor_ofNumber_eq_iff (n : Int) :
    countQueryFor (some (.ofNumber n)) = Catalog.countQueryWithTexts ↔ n < 90400 := by
  have hfirst : firstWithoutTexts = .ofNumber 90400 := rfl
  rw [countQueryFor_eq_iff, hfirst, ← ServerVersion.key_ofNumber_lt_iff (by decide)]
  exact ⟨fun ⟨v, hv, hlt⟩ => Option.some.inj hv ▸ hlt, fun hlt => ⟨_, rfl, hlt⟩⟩

end Inquiry

/-! ### The queries for the number of statements -/

/-- The queries for the number of statements. -/
def Catalog.countQueries : List String := [countQuery, countQueryWithTexts]

theorem Catalog.contains_countQueries (columns view filters : String) (limit : Nat) :
    countQueries.contains (statisticsQuery columns view filters limit) = false := by
  rw [← Bool.not_eq_true, List.contains_iff_mem]
  intro h
  refine statisticsQuery_not_mem columns view filters limit ?_
  rcases List.mem_pair.mp h with h | h <;> rw [h] <;> decide +kernel

/-- The queries for the number of statements that have been asked, in order. -/
def countsAsked (exchanges : List Exchange) : List String :=
  (exchanges.map Exchange.sql).filter Catalog.countQueries.contains

theorem countsAsked_append (first second : List Exchange) :
    countsAsked (first ++ second) = countsAsked first ++ countsAsked second := by
  rw [countsAsked, List.map_append, List.filter_append]
  rfl

theorem countsAsked_singleton_eq_nil {exchange : Exchange}
    (h : Catalog.countQueries.contains exchange.sql = false) : countsAsked [exchange] = [] := by
  rw [countsAsked, List.map_singleton, List.filter_singleton, h]
  rfl

section

variable {settings : Settings} {known : ColumnCache} {rows : List ViewRow}
  {exchanges : List Exchange}

theorem FindsOut.countsAsked_eq_nil (h : FindsOut settings known exchanges) :
    countsAsked exchanges = [] := by
  rcases h with _ | answer
  · rfl
  · exact countsAsked_singleton_eq_nil (Catalog.contains_countQueries _ _ _ _)

theorem Selects.countsAsked_eq_nil (h : Selects settings known rows exchanges) :
    countsAsked exchanges = [] := by
  have hstatistics (columns : List String) (answer : Except QueryError QueryResult) :
      countsAsked [statisticsExchange settings columns answer] = [] := by
    refine countsAsked_singleton_eq_nil ?_
    rw [statisticsExchange, statisticsRequest_fst]
    exact Catalog.contains_countQueries _ _ _ _
  rcases h with _ | _ | ⟨_, e⟩ | ⟨_, result⟩
  · rfl
  · rfl
  · exact hstatistics _ _
  · exact hstatistics _ _

end

theorem countQueryFor_mem_countQueries (version : Option ServerVersion) :
    Inquiry.countQueryFor version ∈ Catalog.countQueries := by
  rcases version with _ | version
  · exact List.mem_cons_self
  · rw [Inquiry.countQueryFor]
    split <;> simp [Catalog.countQueries]

/-- How full the view is takes one query for the number of statements. -/
theorem countsAsked_occupancy (version : Option ServerVersion)
    (count capacity : Except QueryError QueryResult) :
    countsAsked
        [⟨Inquiry.countQueryFor version, [], count⟩, ⟨Catalog.capacityQuery, [], capacity⟩] =
      [Inquiry.countQueryFor version] := by
  have hcount : Catalog.countQueries.contains (Inquiry.countQueryFor version) = true :=
    List.contains_iff_mem.mpr (countQueryFor_mem_countQueries version)
  have hcapacity : Catalog.countQueries.contains Catalog.capacityQuery = false := by
    decide +kernel
  simp only [countsAsked, List.map_cons, List.map_nil, List.filter_cons, hcount, hcapacity,
    List.filter_nil, if_true, Bool.false_eq_true, if_false]

/-! ### Cycles -/

namespace Collector

variable {σ τ : Type} [Source σ] [Interruptible σ] [EventSink τ]

/-- The rows that a cycle fetches from a source, and the source behind that. -/
def fetched (c : Collector) (source : σ) : List ViewRow × σ :=
  let (rows, i) := (Inquiry.fetch c.settings).run ⟨source, c.columns, [], []⟩
  (rows, i.source)

/-- The version of the server, if it is known when the rows have been fetched. -/
def versionBehindRows (c : Collector) (source : σ) : Option ServerVersion :=
  (Source.serverVersion (c.fetched source).2).1

/-- Fetching goes the same way with a transcript as without. -/
theorem fetched_eq (c : Collector) (source : σ) :
    let start : Inquiry (Transcript σ) := ⟨Transcript.blank source, c.columns, [], []⟩
    c.fetched source = (((Inquiry.fetch c.settings).run start).1,
      ((Inquiry.fetch c.settings).run start).2.source.source) := by
  intro start
  have himage := Inquiry.commutes_fetch Transcript.isSourceMap_source c.settings start
  exact congrArg (fun fetched => (fetched.1, fetched.2.source)) himage

/-- A cycle that is running asks for the number of statements if it has got rows, in the words for
the version of the server. Any other cycle does not ask for it. -/
theorem countsAsked_transcript (c : Collector) (cycle : Cycle σ τ) :
    countsAsked (c.transcript cycle) =
      if Interruptible.isRunning cycle.source = true ∧ (c.fetched cycle.source).1 ≠ [] then
        [Inquiry.countQueryFor (c.versionBehindRows cycle.source)]
      else [] := by
  rcases hrunning : Interruptible.isRunning cycle.source with _ | _
  · rw [(transcript_of_stopped hrunning).1, if_neg fun h => Bool.false_ne_true h.1]
    rfl
  let start : Inquiry (Transcript σ) := ⟨Transcript.blank cycle.source, c.columns, [], []⟩
  have hstart : Interruptible.isRunning start.source = true := hrunning
  have hexchanges : c.transcript cycle =
      ((Inquiry.gather c.settings).run start).2.source.exchanges :=
    c.transcript_eq_inquiry cycle
  obtain ⟨found, selected, hfound, hselected, hfetch⟩ :=
    Inquiry.exists_leads_fetch c.settings start
  have hrows : countsAsked (found ++ selected) = [] := by
    rw [countsAsked_append, hfound.countsAsked_eq_nil, hselected.countsAsked_eq_nil]
    rfl
  have hfetched := c.fetched_eq cycle.source
  rw [hexchanges, versionBehindRows, hfetched, Inquiry.gather_of_running hstart]
  change countsAsked _ = if _ ∧ ((Inquiry.fetch c.settings).run start).1 ≠ [] then
    [Inquiry.countQueryFor (Source.serverVersion _).1] else []
  generalize (Inquiry.fetch c.settings).run start = fetched at hfetch ⊢
  obtain ⟨rows, j⟩ := fetched
  simp only [true_and]
  rcases rows with _ | ⟨row, rows⟩
  · have hasked : j.source.exchanges = found ++ selected := hfetch.asked
    rw [List.isEmpty_nil, if_pos rfl, if_neg (fun h => h rfl), hasked, hrows]
  · obtain ⟨count, capacity, hoccupancy⟩ := Inquiry.exists_leads_reportOccupancy c.settings j
    have hasked : _ = found ++ selected ++ _ := (hfetch.trans hoccupancy).asked
    rw [List.isEmpty_cons, if_neg Bool.false_ne_true, if_pos (List.cons_ne_nil row rows), hasked,
      countsAsked_append, hrows, countsAsked_occupancy]
    rfl

/-- **Versions by their numbers.** A greater number stands for a later version, so no version is
that of two numbers, a negative number counts as zero, and the text of a version tells it. A cycle
asks for the number of statements once if it has got rows, and it asks for the texts as well exactly
if the version of the server is known and its number is smaller than 90400. -/
theorem countsAsked_of_number (c : Collector) (cycle : Cycle σ τ) :
    (∀ a b : Int, 0 ≤ a → a < b →
      (ServerVersion.ofNumber a).key < (ServerVersion.ofNumber b).key) ∧
    (∀ a b : Int, 0 ≤ a → 0 ≤ b → ServerVersion.ofNumber a = ServerVersion.ofNumber b → a = b) ∧
    (∀ a : Int, a < 0 → ServerVersion.ofNumber a = ServerVersion.ofNumber 0) ∧
    (∀ v w : Option ServerVersion,
      ServerVersion.renderOptional v = ServerVersion.renderOptional w → v = w) ∧
    let version := c.versionBehindRows cycle.source
    ∃ sql ∈ Catalog.countQueries,
      countsAsked (c.transcript cycle) =
        (if Interruptible.isRunning cycle.source = true ∧ (c.fetched cycle.source).1 ≠ [] then [sql]
        else []) ∧
      (sql = Catalog.countQueryWithTexts ↔
        ∃ v, version = some v ∧ v.key < (ServerVersion.ofNumber 90400).key) ∧
      ∀ n : Int, version = some (.ofNumber n) →
        (sql = Catalog.countQueryWithTexts ↔ n < 90400) := by
  refine ⟨fun a b => ServerVersion.key_ofNumber_lt, fun a b => ServerVersion.ofNumber_inj,
    fun a => ServerVersion.ofNumber_of_neg,
    fun v w h => ServerVersion.renderOptional_injective h, ?_⟩
  intro version
  refine ⟨Inquiry.countQueryFor version, countQueryFor_mem_countQueries version,
    c.countsAsked_transcript cycle, Inquiry.countQueryFor_eq_iff, fun n hn => ?_⟩
  rw [hn]
  exact Inquiry.countQueryFor_ofNumber_eq_iff n

/-- A server of some version that gives the same rows to every query. -/
structure Dated where
  version : ServerVersion
  rows : List ViewRow

instance : Source Dated where
  query _ _ source := (.ok ⟨["calls", "query", "rows"], source.rows⟩, source)
  serverVersion source := (some source.version, source)

instance : Interruptible Dated := ⟨fun _ => true⟩

/-- A cycle that gets a row from a server with some number. -/
def datedCycle (number : Int) : Cycle Dated Drain :=
  ⟨0, 0.0, ⟨.ofNumber number, [calledRow 5]⟩, ⟨⟩⟩

/-- The last number before version 9.4 and the first one since are told apart, and so are the last
number with a patch level and the first one without. -/
theorem countsAsked_of_number_dated :
    (ServerVersion.ofNumber 99999).key < (ServerVersion.ofNumber 100000).key ∧
      countsAsked (plainCollector.transcript (datedCycle 90399)) = [Catalog.countQueryWithTexts] ∧
      countsAsked (plainCollector.transcript (datedCycle 90400)) ≠
        [Catalog.countQueryWithTexts] := by
  obtain ⟨hlt, -, -, -, old, -, hold, -, holdNumber⟩ :=
    countsAsked_of_number plainCollector (datedCycle 90399)
  obtain ⟨-, -, -, -, new, -, hnew, -, hnewNumber⟩ :=
    countsAsked_of_number plainCollector (datedCycle 90400)
  have hgoesOn (number : Int) : Interruptible.isRunning (datedCycle number).source = true ∧
      (plainCollector.fetched (datedCycle number).source).1 ≠ [] := ⟨rfl, List.cons_ne_nil _ _⟩
  rw [hold, hnew, if_pos (hgoesOn _), if_pos (hgoesOn _)]
  refine ⟨hlt 99999 100000 (by decide) (by decide), ?_, fun h => ?_⟩
  · rw [(holdNumber 90399 rfl).mpr (by decide)]
  · exact absurd ((hnewNumber 90400 rfl).mp (List.singleton_injective h)) (by decide)

end Collector

end QueryTelemetry
