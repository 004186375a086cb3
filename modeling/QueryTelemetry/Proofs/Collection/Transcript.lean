import QueryTelemetry.Proofs.Catalog
import QueryTelemetry.Proofs.Collection.Absorption
import QueryTelemetry.Proofs.Collection.Asking

/-!
# What a cycle asks

A `Transcript` hands queries on to another source, and writes down each of them with its answer. A
cycle goes the same way with a transcript as without, so the transcript says what any source is
asked. A cycle that is running finds out the columns of the view unless it knows them (`FindsOut`),
asks for the statistics if it has all columns that it needs (`Selects`), and asks how full the view
is if there are rows (`Measures`). The columns that are known afterwards can be read off the
transcript, exchange by exchange (`ColumnCache.learn`).
-/

namespace QueryTelemetry

/-- A query with its parameters, and the answer to it. -/
structure Exchange where
  sql : String
  parameters : List String
  answer : Except QueryError QueryResult

/-- A source with the exchanges that it has had, in order. -/
structure Transcript (σ : Type) where
  source : σ
  exchanges : List Exchange

namespace Transcript

variable {σ : Type}

/-- Nothing has been asked yet. -/
def blank (source : σ) : Transcript σ := ⟨source, []⟩

variable [Source σ]

/-- Hands on a query, and writes it down with the answer. -/
def query (sql : String) (parameters : List String) (transcript : Transcript σ) :
    Except QueryError QueryResult × Transcript σ :=
  let (answer, source) := Source.query sql parameters transcript.source
  (answer, ⟨source, transcript.exchanges ++ [⟨sql, parameters, answer⟩]⟩)

/-- Hands on the question for the version. -/
def serverVersion (transcript : Transcript σ) : Option ServerVersion × Transcript σ :=
  let (version, source) := Source.serverVersion transcript.source
  (version, ⟨source, transcript.exchanges⟩)

instance : Source (Transcript σ) := ⟨query, serverVersion⟩

theorem exchanges_query (sql : String) (parameters : List String) (transcript : Transcript σ) :
    (Source.query sql parameters transcript).2.exchanges =
      transcript.exchanges ++ [⟨sql, parameters, (Source.query sql parameters transcript).1⟩] := rfl

variable [Interruptible σ]

instance : Interruptible (Transcript σ) :=
  ⟨fun transcript => Interruptible.isRunning transcript.source⟩

/-- The transcript has no influence on the answers. -/
theorem isSourceMap_source : IsSourceMap (Transcript.source : Transcript σ → σ) :=
  ⟨fun _ _ _ => rfl, fun _ => rfl, fun _ => rfl⟩

end Transcript

/-- The columns that are known behind an exchange. An answer to the discovery query tells them, and
an error may cast doubt on them. -/
def ColumnCache.learn (view : String) (known : ColumnCache) (exchange : Exchange) :
    ColumnCache :=
  match exchange.answer with
  | .error e => if e.kind.doubtsColumns then .empty else known
  | .ok result => if exchange.sql = Catalog.discoveryQuery view then .fill result.columns else known

/-- Columns that have been found out are known. -/
theorem ColumnCache.learn_discovery (view : String) (known : ColumnCache)
    (parameters : List String) (result : QueryResult) :
    known.learn view ⟨Catalog.discoveryQuery view, parameters, .ok result⟩ =
      .fill result.columns := by
  rw [learn]
  exact if_pos rfl

/-! ### The exchanges of a cycle -/

/-- The exchanges in which the columns of the view are found out: none if they are known. -/
inductive FindsOut (settings : Settings) : ColumnCache → List Exchange → Prop
  | known (columns : List String) : FindsOut settings ⟨some columns⟩ []
  | discovery (answer : Except QueryError QueryResult) :
    FindsOut settings .empty [⟨Catalog.discoveryQuery settings.view, [], answer⟩]

/-- The query for the statistics in a view with these columns, and the answer to it. -/
def statisticsExchange (settings : Settings) (columns : List String)
    (answer : Except QueryError QueryResult) : Exchange :=
  ⟨(Inquiry.statisticsRequest settings columns).1, (Inquiry.statisticsRequest settings columns).2,
    answer⟩

/-- The rows of the statistics, and the exchanges in which they are fetched: none if the columns are
not known or not enough. -/
inductive Selects (settings : Settings) : ColumnCache → List ViewRow → List Exchange → Prop
  | unknown : Selects settings .empty [] []
  | incomplete {columns : List String} (h : Catalog.missingColumns columns ≠ []) :
    Selects settings ⟨some columns⟩ [] []
  | refused {columns : List String} (h : Catalog.missingColumns columns = []) (e : QueryError) :
    Selects settings ⟨some columns⟩ [] [statisticsExchange settings columns (.error e)]
  | answered {columns : List String} (h : Catalog.missingColumns columns = [])
      (result : QueryResult) :
    Selects settings ⟨some columns⟩ result.rows [statisticsExchange settings columns (.ok result)]

/-- The exchanges about how full the view is: none if there are no rows. -/
inductive Measures : List ViewRow → List Exchange → Prop
  | nothing : Measures [] []
  | occupancy {rows : List ViewRow} (h : rows ≠ []) (version : Option ServerVersion)
      (count capacity : Except QueryError QueryResult) :
    Measures rows
      [⟨Inquiry.countQueryFor version, [], count⟩, ⟨Catalog.capacityQuery, [], capacity⟩]

/-- The exchanges of a cycle that is running, from the columns that are known at its start. -/
inductive Converses (settings : Settings) (known : ColumnCache) : List Exchange → Prop
  | intro {rows : List ViewRow} {found selected measured : List Exchange}
      (hfound : FindsOut settings known found)
      (hselected : Selects settings (found.foldl (ColumnCache.learn settings.view) known) rows
        selected)
      (hmeasured : Measures rows measured) :
    Converses settings known (found ++ (selected ++ measured))

namespace Inquiry

variable {σ : Type} {view : String} {i j k : Inquiry (Transcript σ)}

/-- Exchanges lead from one state to another: they are added to the transcript, and the columns have
been learned from them. -/
structure Leads (view : String) (i : Inquiry (Transcript σ)) (exchanges : List Exchange)
    (j : Inquiry (Transcript σ)) : Prop where
  asked : j.source.exchanges = i.source.exchanges ++ exchanges
  learned : j.columns = exchanges.foldl (ColumnCache.learn view) i.columns

/-- Without an exchange nothing is learned. -/
theorem leads_nil (hsource : j.source.exchanges = i.source.exchanges)
    (hcolumns : j.columns = i.columns) : Leads view i [] j :=
  ⟨hsource.trans (List.append_nil _).symm, hcolumns⟩

theorem Leads.trans {first second : List Exchange} (hfirst : Leads view i first j)
    (hsecond : Leads view j second k) : Leads view i (first ++ second) k := by
  refine ⟨?_, ?_⟩
  · rw [hsecond.asked, hfirst.asked, List.append_assoc]
  · rw [hsecond.learned, hfirst.learned, List.foldl_append]

/-- What is only written down or counted is no exchange. -/
theorem Leads.trans_nil {exchanges : List Exchange} (h : Leads view i exchanges j)
    (hsource : k.source.exchanges = j.source.exchanges) (hcolumns : k.columns = j.columns) :
    Leads view i exchanges k :=
  List.append_nil exchanges ▸ h.trans (leads_nil hsource hcolumns)

variable [Source σ] {settings : Settings}

/-- A query other than for the columns is an exchange. -/
theorem leads_ask {sql : String} (hsql : sql ≠ Catalog.discoveryQuery view)
    (parameters : List String) (i : Inquiry (Transcript σ)) :
    Leads view i [⟨sql, parameters, ((ask sql parameters).run i).1⟩]
      ((ask sql parameters).run i).2 := by
  refine ⟨rfl, ?_⟩
  rw [List.foldl_cons, List.foldl_nil, ColumnCache.learn, ask_run]
  simp only
  rcases (Source.query sql parameters i.source).1 with e | result
  · rfl
  · exact (if_neg hsql).symm

/-- The columns are found out in at most one exchange. -/
theorem exists_leads_availableColumns (settings : Settings) (i : Inquiry (Transcript σ)) :
    ∃ found, FindsOut settings i.columns found ∧
      Leads settings.view i found ((availableColumns settings).run i).2 := by
  rcases hcolumns : i.columns with ⟨_ | columns⟩
  · have hasked := Transcript.exchanges_query (Catalog.discoveryQuery settings.view) [] i.source
    rw [availableColumns_of_unknown hcolumns, ask_run]
    generalize Source.query (Catalog.discoveryQuery settings.view) [] i.source = answered
      at hasked ⊢
    obtain ⟨answer, transcript⟩ := answered
    refine ⟨_, .discovery answer, ?_⟩
    rcases answer with e | result
    · exact ⟨hasked, rfl⟩
    · refine ⟨hasked, ?_⟩
      rw [List.foldl_cons, List.foldl_nil, ColumnCache.learn_discovery]
  · rw [availableColumns_of_known hcolumns]
    exact ⟨[], .known columns, leads_nil rfl rfl⟩

/-- The query for the statistics is not the query for the columns. -/
theorem statisticsRequest_ne (settings : Settings) {columns : List String}
    (h : Catalog.missingColumns columns = []) :
    (statisticsRequest settings columns).1 ≠ Catalog.discoveryQuery settings.view := by
  have hcalls : "calls" ∈ Catalog.selectedColumns columns :=
    Catalog.mem_selectedColumns_of_required h (by decide)
  have hne := Catalog.statisticsQuery_ne_discoveryQuery (List.ne_nil_of_mem hcalls)
    fun column hcolumn => (Catalog.mem_selectedColumns.mp hcolumn).2
  rw [statisticsRequest]
  split
  · exact hne _ _ _
  · exact hne _ _ _

/-- The columns are found out, and then the statistics are fetched. -/
theorem exists_leads_fetch (settings : Settings) (i : Inquiry (Transcript σ)) :
    ∃ found selected, FindsOut settings i.columns found ∧
      Selects settings (found.foldl (ColumnCache.learn settings.view) i.columns)
        ((fetch settings).run i).1 selected ∧
      Leads settings.view i (found ++ selected) ((fetch settings).run i).2 := by
  obtain ⟨found, hfound, hleads⟩ := exists_leads_availableColumns settings i
  have hcolumns := columns_availableColumns settings i
  rw [hleads.learned] at hcolumns
  refine ⟨found, ?_⟩
  rcases havailable : (availableColumns settings).run i with ⟨e | available, j⟩ <;>
    rw [havailable] at hcolumns hleads <;> simp only at hcolumns hleads
  · refine ⟨[], hfound, ?_⟩
    rw [fetch_of_undiscovered havailable, hcolumns, List.append_nil]
    exact ⟨.unknown, hleads.trans_nil rfl rfl⟩
  rcases hmissing : (Catalog.missingColumns available).isEmpty with _ | _
  · obtain ⟨entry, hfetch⟩ := fetch_of_incomplete havailable hmissing
    refine ⟨[], hfound, ?_⟩
    rw [hfetch, hcolumns, List.append_nil]
    exact ⟨.incomplete (by simpa using hmissing), hleads.trans_nil rfl rfl⟩
  · have hnone : Catalog.missingColumns available = [] := List.isEmpty_iff.mp hmissing
    have hask := leads_ask (statisticsRequest_ne settings hnone)
      (statisticsRequest settings available).2 j
    rw [fetch_of_available havailable hmissing, hcolumns]
    generalize (ask _ _).run j = answered at hask ⊢
    obtain ⟨answer, k⟩ := answered
    rcases answer with e | result
    · exact ⟨_, hfound, .refused hnone e, (hleads.trans hask).trans_nil rfl rfl⟩
    · exact ⟨_, hfound, .answered hnone result, hleads.trans hask⟩

/-- A number is one exchange, whatever comes of it. -/
theorem exists_leads_reportNumber (settings : Settings) {sql : String}
    (hsql : sql ≠ Catalog.discoveryQuery view) (metric column : String)
    (i : Inquiry (Transcript σ)) :
    ∃ answer, Leads view i [⟨sql, [], answer⟩]
      ((reportNumber settings metric sql column).run i).2 := by
  have hask := leads_ask hsql [] i
  rw [reportNumber, run_bind]
  generalize (ask sql []).run i = answered at hask ⊢
  obtain ⟨answer, j⟩ := answered
  refine ⟨answer, ?_⟩
  rcases answer with e | result
  · exact hask.trans_nil rfl rfl
  · simp only
    rcases firstNumber? column result with _ | value
    · exact hask.trans_nil rfl rfl
    · exact hask.trans_nil rfl rfl

theorem countQueryFor_mem (version : Option ServerVersion) :
    countQueryFor version ∈
      [Catalog.countQuery, Catalog.countQueryWithTexts, Catalog.capacityQuery] := by
  rcases version with _ | version
  · exact List.mem_cons_self
  · rw [countQueryFor]
    split <;> simp

/-- How full the view is takes two exchanges, the first of them by the version of the server. -/
theorem exists_leads_reportOccupancy (settings : Settings) (i : Inquiry (Transcript σ)) :
    ∃ count capacity, Leads settings.view i
      [⟨countQueryFor (Source.serverVersion i.source).1, [], count⟩,
        ⟨Catalog.capacityQuery, [], capacity⟩]
      ((reportOccupancy settings).run i).2 := by
  have hversion : Leads settings.view i [] (serverVersion.run i).2 := leads_nil rfl rfl
  have hanswer : (serverVersion.run i).1 = (Source.serverVersion i.source).1 := rfl
  rw [reportOccupancy, run_bind, run_bind, ← hanswer]
  generalize serverVersion.run i = answered at hversion ⊢
  obtain ⟨version, j⟩ := answered
  have hcountQuery : countQueryFor version ≠ Catalog.discoveryQuery settings.view :=
    Catalog.ne_discoveryQuery (countQueryFor_mem version) _
  have hcapacityQuery : Catalog.capacityQuery ≠ Catalog.discoveryQuery settings.view :=
    Catalog.ne_discoveryQuery (by simp) _
  obtain ⟨count, hcount⟩ := exists_leads_reportNumber settings hcountQuery
    Collection.countMetric "count" j
  obtain ⟨capacity, hcapacity⟩ := exists_leads_reportNumber settings hcapacityQuery
    Collection.capacityMetric "setting"
    ((reportNumber settings Collection.countMetric (countQueryFor version) "count").run j).2
  exact ⟨count, capacity, hversion.trans (hcount.trans hcapacity)⟩

/-- Everything that is asked in a cycle that is running. -/
theorem exists_leads_gather [Interruptible σ] {i : Inquiry (Transcript σ)}
    (h : Interruptible.isRunning i.source = true) :
    ∃ exchanges, Converses settings i.columns exchanges ∧
      Leads settings.view i exchanges ((gather settings).run i).2 := by
  obtain ⟨found, selected, hfound, hselected, hleads⟩ := exists_leads_fetch settings i
  rw [gather_of_running h]
  generalize (fetch settings).run i = fetched at hselected hleads ⊢
  obtain ⟨rows, j⟩ := fetched
  rcases rows with _ | ⟨row, rows⟩
  · refine ⟨_, .intro hfound hselected .nothing, ?_⟩
    rw [List.append_nil]
    exact hleads
  · obtain ⟨count, capacity, hoccupancy⟩ := exists_leads_reportOccupancy settings j
    have hmeasured := Measures.occupancy (List.cons_ne_nil row rows)
      (Source.serverVersion j.source).1 count capacity
    refine ⟨_, .intro hfound hselected hmeasured, ?_⟩
    rw [← List.append_assoc]
    exact hleads.trans hoccupancy

end Inquiry

/-! ### Cycles -/

namespace Collector

variable {σ τ : Type} [Source σ] [Interruptible σ] [EventSink τ]

/-- What is asked in a cycle, with the answers. -/
def transcript (c : Collector) (cycle : Cycle σ τ) : List Exchange :=
  (c.runCycle cycle.now cycle.timestamp (Transcript.blank cycle.source) cycle.sink).source.exchanges

/-- What is asked in a run, with the answers. -/
def history (c : Collector) : List (Cycle σ τ) → List Exchange
  | [] => []
  | cycle :: cycles => c.transcript cycle ++ (c.next cycle).history cycles

omit [Interruptible σ] in
/-- Nothing is asked when events are sent, apart from the version. -/
theorem exchanges_sendEvents (settings : Settings) (now : Instant) (timestamp : Float)
    (growth : List NormalStatement) (seen : Sampling.Seen) (source : Transcript σ) (sink : τ) :
    (sendEvents settings now timestamp growth seen source sink).2.2.1.exchanges =
      source.exchanges := by
  rw [sendEvents]
  generalize sendTexts (eventContext settings timestamp) now growth seen sink = sent
  obtain ⟨result, seen, sink⟩ := sent
  rcases result with e | texts
  · rfl
  · simp only
    generalize EventSink.send _ sink = delivery
    obtain ⟨delivered, sink⟩ := delivery
    rcases delivered with e | accepted <;> rfl

omit [Interruptible σ] in
theorem finish_transcript (now : Instant) (timestamp : Float) (growth : List NormalStatement)
    (c : Collector) (i : Inquiry (Transcript σ)) (sink : τ) :
    let report := finish now timestamp growth c i sink
    report.source.exchanges = i.source.exchanges ∧ report.collector.columns = c.columns ∧
      report.collector.settings = c.settings := by
  have hsent := exchanges_sendEvents c.settings now timestamp growth c.seen i.source sink
  rw [finish]
  by_cases hgrowth : growth.isEmpty = true
  · rw [if_pos hgrowth]
    exact ⟨rfl, rfl, rfl⟩
  · rw [if_neg hgrowth]
    generalize sendEvents c.settings now timestamp growth c.seen i.source sink = delivery at hsent ⊢
    obtain ⟨sent, seen, source, sink⟩ := delivery
    rcases sent with e | outcome
    · exact ⟨hsent, rfl, rfl⟩
    · exact ⟨hsent, rfl, rfl⟩

/-- Behind its inquiry a cycle asks nothing and keeps the columns that are known. -/
theorem runCycle_transcript (now : Instant) (timestamp : Float) (c : Collector)
    (source : Transcript σ) (sink : τ) :
    let report := c.runCycle now timestamp source sink
    report.source.exchanges = (c.inquiry source).source.exchanges ∧
      report.collector.columns = (c.inquiry source).columns ∧
      report.collector.settings = c.settings := by
  rcases hcompared : c.compared? source with _ | statements
  · obtain ⟨outcome, -, hcycle⟩ := runCycle_of_not_compared hcompared now timestamp sink
    rw [hcycle]
    exact ⟨rfl, rfl, rfl⟩
  · rw [runCycle_of_compared hcompared]
    exact finish_transcript now timestamp _ _ (c.inquiry source) sink

/-- A cycle goes the same way with a transcript as without. -/
theorem next_eq_of_transcript (c : Collector) (cycle : Cycle σ τ) :
    c.next cycle =
      (c.runCycle cycle.now cycle.timestamp (Transcript.blank cycle.source)
        cycle.sink).collector := by
  have hcycle := runCycle_mapSource Transcript.isSourceMap_source cycle.now cycle.timestamp c
    (Transcript.blank cycle.source) cycle.sink
  exact (congrArg CycleReport.collector hcycle).symm

/-- What is asked in a cycle is what is asked in its inquiry. -/
theorem transcript_eq_inquiry (c : Collector) (cycle : Cycle σ τ) :
    c.transcript cycle = (c.inquiry (Transcript.blank cycle.source)).source.exchanges := by
  obtain ⟨hexchanges, -, -⟩ := runCycle_transcript cycle.now cycle.timestamp c
    (Transcript.blank cycle.source) cycle.sink
  exact hexchanges

/-- What is known behind a cycle is what is known behind its inquiry. -/
theorem columns_next_eq_transcript (c : Collector) (cycle : Cycle σ τ) :
    (c.next cycle).columns = (c.inquiry (Transcript.blank cycle.source)).columns := by
  obtain ⟨-, hcolumns, -⟩ := runCycle_transcript cycle.now cycle.timestamp c
    (Transcript.blank cycle.source) cycle.sink
  rw [next_eq_of_transcript, hcolumns]

theorem settings_next (c : Collector) (cycle : Cycle σ τ) :
    (c.next cycle).settings = c.settings := by
  obtain ⟨-, -, hsettings⟩ := runCycle_transcript cycle.now cycle.timestamp c
    (Transcript.blank cycle.source) cycle.sink
  rw [next_eq_of_transcript, hsettings]

/-- What is asked and what is known afterwards, if an inquiry leads to it. -/
theorem transcript_of_leads {c : Collector} {cycle : Cycle σ τ} {exchanges : List Exchange}
    (h : Inquiry.Leads c.settings.view ⟨Transcript.blank cycle.source, c.columns, [], []⟩ exchanges
      (c.inquiry (Transcript.blank cycle.source))) :
    c.transcript cycle = exchanges ∧
      (c.next cycle).columns =
        (c.transcript cycle).foldl (ColumnCache.learn c.settings.view) c.columns := by
  have htranscript : c.transcript cycle = exchanges :=
    (c.transcript_eq_inquiry cycle).trans (h.asked.trans (List.nil_append _))
  rw [columns_next_eq_transcript, htranscript]
  exact ⟨rfl, h.learned⟩

/-- A cycle that has been asked to stop before it begins asks nothing. -/
theorem transcript_of_stopped {c : Collector} {cycle : Cycle σ τ}
    (h : Interruptible.isRunning cycle.source = false) :
    c.transcript cycle = [] ∧
      (c.next cycle).columns =
        (c.transcript cycle).foldl (ColumnCache.learn c.settings.view) c.columns := by
  refine transcript_of_leads ?_
  rw [inquiry, Inquiry.gather_of_stopped h]
  exact Inquiry.leads_nil rfl rfl

/-- Any other cycle asks what it needs. -/
theorem transcript_of_running {c : Collector} {cycle : Cycle σ τ}
    (h : Interruptible.isRunning cycle.source = true) :
    Converses c.settings c.columns (c.transcript cycle) ∧
      (c.next cycle).columns =
        (c.transcript cycle).foldl (ColumnCache.learn c.settings.view) c.columns := by
  let start : Inquiry (Transcript σ) := ⟨Transcript.blank cycle.source, c.columns, [], []⟩
  obtain ⟨exchanges, hconverses, hleads⟩ :
      ∃ exchanges, Converses c.settings start.columns exchanges ∧
        Inquiry.Leads c.settings.view start exchanges ((Inquiry.gather c.settings).run start).2 :=
    Inquiry.exists_leads_gather h
  obtain ⟨htranscript, hcolumns⟩ := transcript_of_leads hleads
  exact ⟨htranscript ▸ hconverses, hcolumns⟩

/-! ### Runs -/

/-- The known columns can be read off the transcript. -/
theorem columns_next (c : Collector) (cycle : Cycle σ τ) :
    (c.next cycle).columns =
      (c.transcript cycle).foldl (ColumnCache.learn c.settings.view) c.columns := by
  rcases hrunning : Interruptible.isRunning cycle.source with _ | _
  · exact (transcript_of_stopped hrunning).2
  · exact (transcript_of_running hrunning).2

theorem settings_after (c : Collector) (cycles : List (Cycle σ τ)) :
    (c.after cycles).settings = c.settings := by
  induction cycles generalizing c with
  | nil => rfl
  | cons cycle cycles ih => exact (ih (c.next cycle)).trans (settings_next c cycle)

/-- Behind a run the columns are known that can be learned from all that has been asked. -/
theorem columns_after (c : Collector) (cycles : List (Cycle σ τ)) :
    (c.after cycles).columns =
      (c.history cycles).foldl (ColumnCache.learn c.settings.view) c.columns := by
  induction cycles generalizing c with
  | nil => rfl
  | cons cycle cycles ih =>
    have hrest := ih (c.next cycle)
    rw [settings_next, columns_next] at hrest
    rw [history, List.foldl_append]
    exact hrest

end Collector

end QueryTelemetry
