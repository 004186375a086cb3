import QueryTelemetry.Proofs.Collection.Conservation
import QueryTelemetry.Proofs.Collection.Transcript

/-!
# The course of a cycle

What a cycle asks and what it reports of itself depend on the answers that it gets. `RowAnswers` are
the answers up to the rows of the statistics, and a `Course` has those about how full the view is
besides. From them come the exchanges of the cycle in their order, the one failure that is counted,
if there is one (`RowAnswers.Fails`), and the samples of how full the view is. A cycle that is
running takes such a course, with a query where there is an answer and nowhere else
(`exists_course`).
-/

namespace QueryTelemetry

/-- What a source says to a query. -/
abbrev Answer : Type := Except QueryError QueryResult

/-! ### Answers -/

/-- The answers of a cycle up to the rows of the statistics; none where nothing has been asked. -/
structure RowAnswers where
  discovery : Option Answer
  statistics : Option Answer

/-- The columns that a view needs to have. -/
def HasRequiredColumns (columns : List String) : Prop :=
  "calls" ∈ columns ∧ "query" ∈ columns ∧ "rows" ∈ columns

instance (columns : List String) : Decidable (HasRequiredColumns columns) :=
  inferInstanceAs (Decidable (_ ∧ _ ∧ _))

namespace RowAnswers

/-- The columns of the view: those that are known, or else those that have been discovered. -/
def available? (known : ColumnCache) (answers : RowAnswers) : Option (List String) :=
  match known.columns, answers.discovery with
  | some columns, _ => some columns
  | none, some (.ok result) => some (Text.sortedSet result.columns)
  | none, _ => none

/-- The rows that have come. -/
def rows (answers : RowAnswers) : List ViewRow :=
  match answers.statistics with
  | some (.ok result) => result.rows
  | _ => []

/-- The queries that have been answered, in their order. -/
def exchanges (settings : Settings) (known : ColumnCache) (answers : RowAnswers) : List Exchange :=
  (answers.discovery.toList.map fun answer =>
      ⟨Catalog.discoveryQuery settings.view, [], answer⟩) ++
    answers.statistics.toList.map fun answer =>
      statisticsExchange settings ((answers.available? known).getD []) answer

/-- The columns are asked for if they are not known, and the statistics if there are all columns
that are required. -/
structure Fits (known : ColumnCache) (answers : RowAnswers) : Prop where
  discovery_iff : answers.discovery.isSome = true ↔ known = .empty
  statistics_iff : answers.statistics.isSome = true ↔
    ∃ columns, answers.available? known = some columns ∧ HasRequiredColumns columns

/-- There are no rows, for a reason that is counted under a tag. -/
inductive Fails (known : ColumnCache) (answers : RowAnswers) : String → Prop
  | undiscovered {e : QueryError} (h : answers.discovery = some (.error e)) :
    Fails known answers e.kind.tag
  | incomplete {columns : List String} (h : answers.available? known = some columns)
      (hmissing : ¬ HasRequiredColumns columns) :
    Fails known answers Collection.missingColumnsTag
  | refused {e : QueryError} (h : answers.statistics = some (.error e)) :
    Fails known answers e.kind.tag

/-- Errors are counted once if there is a reason, and not at all without one. -/
structure Counts (settings : Settings) (known : ColumnCache) (answers : RowAnswers)
    (errors : List Diagnostic) : Prop where
  of_fails : ∀ tag, answers.Fails known tag →
    errors = [⟨.count, Collection.errorMetric, 1.0, settings.tags ++ [tag]⟩]
  of_not_fails : (∀ tag, ¬ answers.Fails known tag) → errors = []

variable {settings : Settings} {known : ColumnCache} {answers : RowAnswers} {columns : List String}

/-- An error leaves no columns, since the columns were asked for. -/
theorem available?_of_error (hasked : answers.discovery.isSome = true ↔ known = .empty)
    {e : QueryError} (h : answers.discovery = some (.error e)) :
    answers.available? known = none := by
  obtain rfl := hasked.mp (by rw [h]; rfl)
  rw [available?, h]
  rfl

/-- Without columns the cycle fails for the error to the query for them. -/
theorem fails_iff_of_error (hasked : answers.discovery.isSome = true ↔ known = .empty)
    {e : QueryError} (h : answers.discovery = some (.error e))
    (hstatistics : answers.statistics = none) {tag : String} :
    answers.Fails known tag ↔ tag = e.kind.tag := by
  have hnone := available?_of_error hasked h
  constructor
  · rintro (herror | ⟨hsome, -⟩ | hrefused)
    · rw [h] at herror
      cases herror
      rfl
    · rw [hnone] at hsome
      cases hsome
    · rw [hstatistics] at hrefused
      cases hrefused
  · rintro rfl
    exact .undiscovered h

/-- With columns the cycle fails if some are missing or for the error to the query for the
statistics. -/
theorem fails_iff_of_available (hasked : answers.discovery.isSome = true ↔ known = .empty)
    (h : answers.available? known = some columns) {tag : String} :
    answers.Fails known tag ↔
      (¬ HasRequiredColumns columns ∧ tag = Collection.missingColumnsTag) ∨
        ∃ e, answers.statistics = some (.error e) ∧ tag = e.kind.tag := by
  constructor
  · rintro (herror | ⟨hsome, hmissing⟩ | hrefused)
    · rw [available?_of_error hasked herror] at h
      cases h
    · obtain rfl := Option.some.inj (h.symm.trans hsome)
      exact .inl ⟨hmissing, rfl⟩
    · exact .inr ⟨_, hrefused, rfl⟩
  · rintro (⟨hmissing, rfl⟩ | ⟨e, hrefused, rfl⟩)
    · exact .incomplete h hmissing
    · exact .refused hrefused

theorem Fits.of_available (hasked : answers.discovery.isSome = true ↔ known = .empty)
    (h : answers.available? known = some columns)
    (hstatistics : answers.statistics.isSome = true ↔ HasRequiredColumns columns) :
    answers.Fits known := by
  refine ⟨hasked, hstatistics.trans ⟨fun hall => ⟨columns, h, hall⟩, ?_⟩⟩
  rintro ⟨others, hothers, hall⟩
  obtain rfl := Option.some.inj (h.symm.trans hothers)
  exact hall

/-- With one reason only, the tag is known. -/
theorem Counts.of_fails_iff {tag : String}
    (h : ∀ {other}, answers.Fails known other ↔ other = tag) :
    answers.Counts settings known
      [⟨.count, Collection.errorMetric, 1.0, settings.tags ++ [tag]⟩] := by
  refine ⟨fun other hother => ?_, fun hnone => absurd (h.mpr rfl) (hnone tag)⟩
  rw [h.mp hother]

/-- What is counted if columns are missing. -/
theorem Counts.of_incomplete (hasked : answers.discovery.isSome = true ↔ known = .empty)
    (h : answers.available? known = some columns) (hmissing : ¬ HasRequiredColumns columns)
    (hstatistics : answers.statistics = none) :
    answers.Counts settings known
      [⟨.count, Collection.errorMetric, 1.0, settings.tags ++ [Collection.missingColumnsTag]⟩] := by
  refine .of_fails_iff fun {tag} => ?_
  simp [fails_iff_of_available hasked h, hmissing, hstatistics]

/-- What is counted with all columns: nothing but a refusal. -/
theorem Counts.of_answer (hasked : answers.discovery.isSome = true ↔ known = .empty)
    (h : answers.available? known = some columns) (hall : HasRequiredColumns columns)
    {answer : Answer} (hstatistics : answers.statistics = some answer) :
    answers.Counts settings known
      (match answer with
      | .error e => [⟨.count, Collection.errorMetric, 1.0, settings.tags ++ [e.kind.tag]⟩]
      | .ok _ => []) := by
  rcases answer with e | result
  · refine .of_fails_iff fun {tag} => ?_
    simp [fails_iff_of_available hasked h, hall, hstatistics]
  · refine ⟨fun tag hfails => ?_, fun _ => rfl⟩
    simp [fails_iff_of_available hasked h, hall, hstatistics] at hfails

end RowAnswers

/-- The required columns are there if none of them is missing. -/
theorem missingColumns_eq_nil_iff_hasRequiredColumns {columns : List String} :
    Catalog.missingColumns columns = [] ↔ HasRequiredColumns columns := by
  rw [Catalog.missingColumns_eq_nil_iff, HasRequiredColumns]
  simp [Catalog.requiredColumns]

/-- The samples of a number that a query returns. -/
def numberSamples (settings : Settings) (metric column : String) : Answer → List Diagnostic
  | .error _ => []
  | .ok result =>
    (Inquiry.firstNumber? column result).toList.map fun value =>
      ⟨.count, metric, value, settings.tags⟩

/-- The answers about how full the view is, to a server of some version. -/
structure Occupancy where
  version : Option ServerVersion
  count : Answer
  capacity : Answer

namespace Occupancy

/-- Both queries, in their order. -/
def exchanges (occupancy : Occupancy) : List Exchange :=
  [⟨Inquiry.countQueryFor occupancy.version, [], occupancy.count⟩,
    ⟨Catalog.capacityQuery, [], occupancy.capacity⟩]

/-- The numbers that have come. -/
def samples (settings : Settings) (occupancy : Occupancy) : List Diagnostic :=
  numberSamples settings Collection.countMetric "count" occupancy.count ++
    numberSamples settings Collection.capacityMetric "setting" occupancy.capacity

end Occupancy

/-- All answers of a cycle. -/
structure Course extends RowAnswers where
  occupancy : Option Occupancy

namespace Course

/-- The queries of a cycle with their answers, in their order. -/
def exchanges (settings : Settings) (known : ColumnCache) (course : Course) : List Exchange :=
  course.toRowAnswers.exchanges settings known ++
    course.occupancy.toList.flatMap Occupancy.exchanges

/-- The samples of how full the view is. -/
def occupancySamples (settings : Settings) (course : Course) : List Diagnostic :=
  course.occupancy.toList.flatMap (Occupancy.samples settings)

theorem map_answer_exchanges (settings : Settings) (known : ColumnCache) (course : Course) :
    (course.exchanges settings known).map Exchange.answer =
      course.discovery.toList ++ course.statistics.toList ++
        course.occupancy.toList.flatMap fun occupancy => [occupancy.count, occupancy.capacity] := by
  rw [exchanges, RowAnswers.exchanges, List.map_append, List.map_append, List.map_map, List.map_map,
    List.map_flatMap]
  simp [Function.comp_def, statisticsExchange, Occupancy.exchanges]

end Course

/-! ### The inquiry -/

namespace Inquiry

variable {σ : Type} {settings : Settings} {i j k : Inquiry (Transcript σ)}

/-- Exchanges lead from one state to another, and samples have been added on the way. -/
structure Proceeds (i : Inquiry (Transcript σ)) (exchanges : List Exchange)
    (samples : List Diagnostic) (j : Inquiry (Transcript σ)) : Prop where
  asked : j.source.exchanges = i.source.exchanges ++ exchanges
  sampled : j.diagnostics = i.diagnostics ++ samples

theorem Proceeds.trans {first second : List Exchange} {samples more : List Diagnostic}
    (hfirst : Proceeds i first samples j) (hsecond : Proceeds j second more k) :
    Proceeds i (first ++ second) (samples ++ more) k := by
  refine ⟨?_, ?_⟩
  · rw [hsecond.asked, hfirst.asked, List.append_assoc]
  · rw [hsecond.sampled, hfirst.sampled, List.append_assoc]

/-- Samples are added without an exchange. -/
theorem Proceeds.trans_samples {exchanges : List Exchange} {samples more : List Diagnostic}
    (h : Proceeds i exchanges samples j) (hsource : k.source.exchanges = j.source.exchanges)
    (hdiagnostics : k.diagnostics = j.diagnostics ++ more) :
    Proceeds i exchanges (samples ++ more) k :=
  List.append_nil exchanges ▸ h.trans ⟨hsource.trans (List.append_nil _).symm, hdiagnostics⟩

variable [Source σ]

/-- A query is an exchange without samples. -/
theorem proceeds_ask (sql : String) (parameters : List String) (i : Inquiry (Transcript σ)) :
    Proceeds i [⟨sql, parameters, ((ask sql parameters).run i).1⟩] []
      ((ask sql parameters).run i).2 :=
  ⟨rfl, (List.append_nil _).symm⟩

/-- The columns are discovered if they are not known. -/
theorem exists_proceeds_availableColumns (settings : Settings) (i : Inquiry (Transcript σ)) :
    ∃ discovery : Option Answer, (discovery.isSome = true ↔ i.columns = .empty) ∧
      Proceeds i (RowAnswers.exchanges settings i.columns ⟨discovery, none⟩) []
        ((availableColumns settings).run i).2 ∧
      match ((availableColumns settings).run i).1 with
      | .error e => discovery = some (.error e)
      | .ok columns =>
        ∀ statistics, RowAnswers.available? i.columns ⟨discovery, statistics⟩ = some columns := by
  rcases hcolumns : i.columns with ⟨_ | columns⟩
  · have hask := proceeds_ask (Catalog.discoveryQuery settings.view) [] i
    rw [availableColumns_of_unknown hcolumns]
    generalize (ask _ _).run i = answered at hask ⊢
    obtain ⟨answer, j⟩ := answered
    refine ⟨some answer, by simp [ColumnCache.empty], ?_⟩
    rcases answer with e | result
    · exact ⟨hask, rfl⟩
    · exact ⟨hask.trans_samples rfl (List.append_nil _).symm, fun _ => rfl⟩
  · rw [availableColumns_of_known hcolumns]
    refine ⟨none, by simp [ColumnCache.empty], ?_, fun _ => rfl⟩
    exact ⟨(List.append_nil _).symm, (List.append_nil _).symm⟩

/-- The statistics are asked for if there are all columns, and whatever is in the way of rows is
counted. -/
theorem exists_proceeds_fetch (settings : Settings) (i : Inquiry (Transcript σ)) :
    ∃ (answers : RowAnswers) (errors : List Diagnostic),
      answers.Fits i.columns ∧ answers.Counts settings i.columns errors ∧
      Proceeds i (answers.exchanges settings i.columns) errors ((fetch settings).run i).2 ∧
      ((fetch settings).run i).1 = answers.rows := by
  obtain ⟨discovery, hasked, hproceeds, hcolumns⟩ := exists_proceeds_availableColumns settings i
  rcases havailable : (availableColumns settings).run i with ⟨e | columns, j⟩ <;>
    rw [havailable] at hproceeds hcolumns <;> simp only at hproceeds hcolumns
  · have hnone : RowAnswers.available? i.columns ⟨discovery, none⟩ = none :=
      RowAnswers.available?_of_error hasked hcolumns
    rw [fetch_of_undiscovered havailable]
    refine ⟨⟨discovery, none⟩, _, ⟨hasked, ?_⟩,
      .of_fails_iff (RowAnswers.fails_iff_of_error hasked hcolumns rfl),
      hproceeds.trans_samples rfl rfl, rfl⟩
    rw [hnone]
    simp
  rcases hmissing : (Catalog.missingColumns columns).isEmpty with _ | _
  · have hlacks : ¬ HasRequiredColumns columns := by
      rw [← missingColumns_eq_nil_iff_hasRequiredColumns, ← List.isEmpty_iff, hmissing]
      exact Bool.false_ne_true
    obtain ⟨entry, hfetch⟩ := fetch_of_incomplete havailable hmissing
    rw [hfetch]
    exact ⟨⟨discovery, none⟩, _, .of_available hasked (hcolumns none) (by simp [hlacks]),
      .of_incomplete hasked (hcolumns none) hlacks rfl, hproceeds.trans_samples rfl rfl, rfl⟩
  · have hall : HasRequiredColumns columns :=
      missingColumns_eq_nil_iff_hasRequiredColumns.mp (List.isEmpty_iff.mp hmissing)
    have hask := proceeds_ask (statisticsRequest settings columns).1
      (statisticsRequest settings columns).2 j
    rw [fetch_of_available havailable hmissing]
    generalize (ask _ _).run j = answered at hask ⊢
    obtain ⟨answer, k⟩ := answered
    have hexchanges : RowAnswers.exchanges settings i.columns ⟨discovery, some answer⟩ =
        RowAnswers.exchanges settings i.columns ⟨discovery, none⟩ ++
          [statisticsExchange settings columns answer] := by
      simp [RowAnswers.exchanges, hcolumns]
    have hfits : RowAnswers.Fits i.columns ⟨discovery, some answer⟩ :=
      .of_available hasked (hcolumns _) (by simp [hall])
    refine ⟨⟨discovery, some answer⟩, _, hfits, .of_answer hasked (hcolumns _) hall rfl, ?_, ?_⟩
    · rw [hexchanges]
      rcases answer with e | result
      · exact (hproceeds.trans hask).trans_samples rfl rfl
      · exact hproceeds.trans hask
    · rcases answer with e | result <;> rfl

/-- A number is one exchange, and a sample if one has come. -/
theorem exists_proceeds_reportNumber (settings : Settings) (metric sql column : String)
    (i : Inquiry (Transcript σ)) :
    ∃ answer, Proceeds i [⟨sql, [], answer⟩] (numberSamples settings metric column answer)
      ((reportNumber settings metric sql column).run i).2 := by
  have hask := proceeds_ask sql [] i
  rw [reportNumber, run_bind]
  generalize (ask sql []).run i = answered at hask ⊢
  obtain ⟨answer, j⟩ := answered
  refine ⟨answer, ?_⟩
  rcases answer with e | result
  · exact hask.trans_samples rfl (List.append_nil _).symm
  · simp only [numberSamples]
    rcases firstNumber? column result with _ | value
    · exact hask.trans_samples rfl (List.append_nil _).symm
    · exact hask.trans_samples rfl rfl

/-- The second number is asked for whatever comes of the first one. -/
theorem exists_proceeds_reportOccupancy (settings : Settings) (i : Inquiry (Transcript σ)) :
    ∃ occupancy : Occupancy, Proceeds i occupancy.exchanges (occupancy.samples settings)
      ((reportOccupancy settings).run i).2 := by
  have hversion : Proceeds i [] [] (serverVersion.run i).2 :=
    ⟨(List.append_nil _).symm, (List.append_nil _).symm⟩
  rw [reportOccupancy, run_bind, run_bind]
  generalize serverVersion.run i = answered at hversion ⊢
  obtain ⟨version, j⟩ := answered
  obtain ⟨count, hcount⟩ := exists_proceeds_reportNumber settings Collection.countMetric
    (countQueryFor version) "count" j
  obtain ⟨capacity, hcapacity⟩ := exists_proceeds_reportNumber settings Collection.capacityMetric
    Catalog.capacityQuery "setting"
    ((reportNumber settings Collection.countMetric (countQueryFor version) "count").run j).2
  exact ⟨⟨version, count, capacity⟩, hversion.trans (hcount.trans hcapacity)⟩

/-- An inquiry that is running takes a course. It asks how full the view is if there are rows, and
goes on with them if it may. -/
theorem exists_course_gather [Interruptible σ] {i : Inquiry (Transcript σ)}
    (h : Interruptible.isRunning i.source = true) :
    ∃ (course : Course) (errors : List Diagnostic),
      course.Fits i.columns ∧ course.Counts settings i.columns errors ∧
      (course.occupancy.isSome = true ↔ course.rows ≠ []) ∧
      Proceeds i (course.exchanges settings i.columns)
        (errors ++ course.occupancySamples settings) ((gather settings).run i).2 ∧
      ((gather settings).run i).1 =
        if course.rows.isEmpty then .error .noRows
        else if Interruptible.isRunning ((gather settings).run i).2.source then .ok course.rows
        else .error .cancelled := by
  obtain ⟨answers, errors, hfits, hcounts, hproceeds, hrows⟩ := exists_proceeds_fetch settings i
  rw [gather_of_running h]
  simp only [hrows]
  rcases hempty : answers.rows.isEmpty with _ | _
  · have hne : answers.rows ≠ [] := by
      rw [ne_eq, ← List.isEmpty_iff, hempty]
      exact Bool.false_ne_true
    obtain ⟨occupancy, hoccupancy⟩ := exists_proceeds_reportOccupancy settings
      ((fetch settings).run i).2
    have hadded : Proceeds i (Course.exchanges settings i.columns ⟨answers, some occupancy⟩)
        (errors ++ Course.occupancySamples settings ⟨answers, some occupancy⟩)
        ((reportOccupancy settings).run ((fetch settings).run i).2).2 := by
      simpa [Course.exchanges, Course.occupancySamples] using hproceeds.trans hoccupancy
    exact ⟨⟨answers, some occupancy⟩, errors, hfits, hcounts, ⟨fun _ => hne, fun _ => rfl⟩, hadded,
      by simp [hempty]⟩
  · have hnil : answers.rows = [] := List.isEmpty_iff.mp hempty
    have hnone : Proceeds i (Course.exchanges settings i.columns ⟨answers, none⟩)
        (errors ++ Course.occupancySamples settings ⟨answers, none⟩)
        ((fetch settings).run i).2 := by
      simpa [Course.exchanges, Course.occupancySamples] using hproceeds
    exact ⟨⟨answers, none⟩, errors, hfits, hcounts, ⟨nofun, fun hne => absurd hnil hne⟩, hnone,
      by simp [hempty]⟩

end Inquiry

/-! ### Samples by their metrics -/

section Named

open Diagnostic

theorem named_append (metric : String) (samples more : List Diagnostic) :
    named metric (samples ++ more) = named metric samples ++ named metric more :=
  List.filter_append samples more

theorem named_of_forall {metric : String} {samples : List Diagnostic}
    (h : ∀ sample ∈ samples, sample.metric = metric) (other : String) :
    named other samples = if metric = other then samples else [] := by
  rw [named]
  split
  · rename_i heq
    exact List.filter_eq_self.mpr fun sample hsample => by simp [h sample hsample, heq]
  · rename_i hne
    exact List.filter_eq_nil_iff.mpr fun sample hsample => by simp [h sample hsample, hne]

theorem metric_of_mem_numberSamples {settings : Settings} {metric column : String} {answer : Answer}
    {sample : Diagnostic} (h : sample ∈ numberSamples settings metric column answer) :
    sample.metric = metric := by
  rcases answer with e | result
  · cases h
  · obtain ⟨value, -, rfl⟩ := List.mem_map.mp h
    rfl

/-- How full the view is has names of its own. -/
theorem named_occupancySamples {metric : String} (hcount : metric ≠ Collection.countMetric)
    (hcapacity : metric ≠ Collection.capacityMetric) (settings : Settings) (course : Course) :
    named metric (course.occupancySamples settings) = [] := by
  rw [Course.occupancySamples]
  rcases course.occupancy with _ | occupancy
  · rfl
  · rw [Option.toList_some, List.flatMap_singleton, Occupancy.samples, named_append,
      named_of_forall fun _ => metric_of_mem_numberSamples,
      named_of_forall fun _ => metric_of_mem_numberSamples, if_neg hcount.symm,
      if_neg hcapacity.symm]
    rfl

/-- Errors, how full the view is and numbers of rows are told apart by their metrics. -/
theorem named_samples {counted reported : List Diagnostic}
    (hcounted : ∀ sample ∈ counted, sample.metric = Collection.errorMetric)
    (hreported : ∀ sample ∈ reported, sample.metric = Collection.rowsMetric) (settings : Settings)
    (course : Course) :
    named Collection.errorMetric (counted ++ course.occupancySamples settings ++ reported) =
        counted ∧
      named Collection.rowsMetric (counted ++ course.occupancySamples settings ++ reported) =
        reported := by
  have hne : Collection.errorMetric ≠ Collection.rowsMetric := by decide
  refine ⟨?_, ?_⟩
  · rw [named_append, named_append, named_of_forall hcounted, named_of_forall hreported,
      named_occupancySamples (by decide) (by decide), if_pos rfl, if_neg hne.symm, List.append_nil,
      List.append_nil]
  · rw [named_append, named_append, named_of_forall hcounted, named_of_forall hreported,
      named_occupancySamples (by decide) (by decide), if_neg hne, if_pos rfl, List.append_nil,
      List.nil_append]

/-- What is counted are errors. -/
theorem RowAnswers.Counts.metric_eq {settings : Settings} {known : ColumnCache}
    {answers : RowAnswers} {errors : List Diagnostic} (h : answers.Counts settings known errors) :
    ∀ sample ∈ errors, sample.metric = Collection.errorMetric := by
  by_cases hfails : ∃ tag, answers.Fails known tag
  · obtain ⟨tag, hfails⟩ := hfails
    rw [h.of_fails tag hfails, List.forall_mem_singleton]
  · rw [h.of_not_fails (not_exists.mp hfails)]
    exact nofun

end Named

/-! ### Cycles -/

namespace Collector

variable {σ τ : Type} [Source σ] [Interruptible σ] [EventSink τ]

/-- An inquiry goes the same way with a transcript as without. -/
theorem gather_transcript (c : Collector) (source : σ) :
    ((Inquiry.gather c.settings).run ⟨source, c.columns, [], []⟩).1 =
        ((Inquiry.gather c.settings).run ⟨Transcript.blank source, c.columns, [], []⟩).1 ∧
      c.inquiry source =
        (c.inquiry (Transcript.blank source)).mapSource Transcript.source := by
  have hgather := Inquiry.commutes_gather Transcript.isSourceMap_source c.settings
    ⟨Transcript.blank source, c.columns, [], []⟩
  exact ⟨congrArg Prod.fst hgather, congrArg Prod.snd hgather⟩

omit [Interruptible σ] in
/-- Sending events adds no samples. -/
theorem diagnostics_finish (now : Instant) (timestamp : Float) (growth : List NormalStatement)
    (c : Collector) (i : Inquiry σ) (sink : τ) :
    (finish now timestamp growth c i sink).diagnostics =
      i.diagnostics ++ [rowsSample c.settings growth] := by
  rw [finish]
  by_cases hgrowth : growth.isEmpty = true
  · rw [if_pos hgrowth]
  · rw [if_neg hgrowth]
    generalize sendEvents c.settings now timestamp growth c.seen i.source sink = delivery
    obtain ⟨sent, seen, source, sink⟩ := delivery
    rcases sent with e | outcome <;> rfl

/-- The number of rows is added to the samples of the inquiry if totals are compared. -/
theorem diagnostics_runCycle (c : Collector) (cycle : Cycle σ τ) :
    (c.runCycle cycle.now cycle.timestamp cycle.source cycle.sink).diagnostics =
      (c.inquiry cycle.source).diagnostics ++
        (c.compared? cycle.source).toList.map fun statements =>
          rowsSample c.settings (c.baselines.advance (watchedMetrics statements)
            NormalStatement.identity statements).1 := by
  rcases hcompared : c.compared? cycle.source with _ | statements
  · obtain ⟨outcome, -, hcycle⟩ :=
      runCycle_of_not_compared hcompared cycle.now cycle.timestamp cycle.sink
    rw [hcycle]
    exact (List.append_nil _).symm
  · rw [runCycle_of_compared hcompared, diagnostics_finish]
    rfl

/-- Totals are compared if the inquiry may go on behind its last query and some row is a
statement. -/
theorem compared?_of_gathered {c : Collector} {source : σ} {rows : List ViewRow}
    (h : ((Inquiry.gather c.settings).run ⟨source, c.columns, [], []⟩).1 =
      if rows.isEmpty then .error .noRows
      else if Interruptible.isRunning (c.inquiry source).source then .ok rows
      else .error .cancelled) :
    c.compared? source =
      if Interruptible.isRunning (c.inquiry source).source = true ∧
          Redaction.normalStatements c.redact rows ≠ [] then
        some (Redaction.normalStatements c.redact rows)
      else none := by
  rw [compared?, h]
  rcases rows with _ | ⟨row, rows⟩
  · simp [Redaction.normalStatements]
  · cases Interruptible.isRunning (c.inquiry source).source with
    | false => simp
    | true =>
      cases hstatements : Redaction.normalStatements c.redact (row :: rows) <;>
        simp [hstatements]

/-- A cycle that is running takes a course: it asks what belongs to the course, in this order, and
nothing else. It asks for the columns of the view if none are known, for the statistics if all
columns are there that are required, and how full the view is if there are rows. Its samples are an
error, if the columns could not be discovered, are not all there or the statistics were refused;
what has come of how full the view is; and, if the cycle may go on behind the last query and some
row is a statement, one gauge with the number of statements that have grown. -/
theorem exists_course (c : Collector) (cycle : Cycle σ τ)
    (h : Interruptible.isRunning cycle.source = true) :
    ∃ course : Course,
      c.transcript cycle = course.exchanges c.settings c.columns ∧
      course.Fits c.columns ∧
      (course.occupancy.isSome = true ↔ course.rows ≠ []) ∧
      let samples := (c.runCycle cycle.now cycle.timestamp cycle.source cycle.sink).diagnostics
      let errors := Diagnostic.named Collection.errorMetric samples
      let gauges := Diagnostic.named Collection.rowsMetric samples
      let statements := Redaction.normalStatements c.redact course.rows
      let growth :=
        (c.baselines.advance (watchedMetrics statements) NormalStatement.identity statements).1
      let goesOn := Interruptible.isRunning (c.inquiry cycle.source).source = true ∧
        ∃ row ∈ course.rows, ∃ s, Redaction.normalStatement? c.redact row = some s
      samples = errors ++ course.occupancySamples c.settings ++ gauges ∧
      course.Counts c.settings c.columns errors ∧
      (goesOn → gauges =
        [⟨.gauge, Collection.rowsMetric, Float.ofNat growth.length, c.settings.tags⟩]) ∧
      (¬ goesOn → gauges = []) := by
  let start : Inquiry (Transcript σ) := ⟨Transcript.blank cycle.source, c.columns, [], []⟩
  obtain ⟨course, counted, hfits, hcounts, hoccupancy, hproceeds, hgathered⟩ :=
    @Inquiry.exists_course_gather σ c.settings _ _ start h
  obtain ⟨hfirst, hinquiry⟩ := c.gather_transcript cycle.source
  have hcompared := compared?_of_gathered (hfirst.trans (hgathered.trans (by rw [hinquiry]; rfl)))
  have hsamples := c.diagnostics_runCycle cycle
  have hasked : (c.inquiry cycle.source).diagnostics =
      counted ++ course.occupancySamples c.settings := by
    rw [hinquiry]
    exact hproceeds.sampled.trans (List.nil_append _)
  rw [hasked] at hsamples
  refine ⟨course, ?_, hfits, hoccupancy, ?_⟩
  · exact (c.transcript_eq_inquiry cycle).trans (hproceeds.asked.trans (List.nil_append _))
  intro samples errors gauges statements growth goesOn
  generalize hreported : (c.compared? cycle.source).toList.map _ = reported at hsamples
  have hmetric : ∀ sample ∈ reported, sample.metric = Collection.rowsMetric := by
    subst hreported
    intro sample hsample
    obtain ⟨statements, -, rfl⟩ := List.mem_map.mp hsample
    rfl
  obtain ⟨herrors, hgauges⟩ := named_samples hcounts.metric_eq hmetric c.settings course
  rw [← hsamples] at herrors hgauges
  have hgoesOn : goesOn ↔ Interruptible.isRunning (c.inquiry cycle.source).source = true ∧
      Redaction.normalStatements c.redact course.rows ≠ [] := by
    refine and_congr_right fun _ => ?_
    rw [Redaction.normalStatements, ne_eq, List.filterMap_eq_nil_iff]
    simp [Option.ne_none_iff_exists']
  simp only [errors, gauges, samples, herrors, hgauges]
  refine ⟨hsamples, hcounts, fun hrunning => ?_, fun hstopped => ?_⟩
  · rw [← hreported, hcompared, if_pos (hgoesOn.mp hrunning)]
    rfl
  · rw [← hreported, hcompared, if_neg fun hrunning => hstopped (hgoesOn.mpr hrunning)]
    rfl

/-- A source that has prepared its next answers. -/
structure Prepared where
  answers : List Answer

instance : Source Prepared where
  query _ _
    | ⟨[]⟩ => (.error ⟨.connection, "no answer"⟩, ⟨[]⟩)
    | ⟨answer :: answers⟩ => (answer, ⟨answers⟩)
  serverVersion source := (none, source)

instance : Interruptible Prepared := ⟨fun _ => true⟩

/-- A cycle that finds a row in the view, but not how many statements there are. -/
def uncountedCycle (calls : Int64) : Cycle Prepared Drain :=
  ⟨0, 0.0,
    ⟨[.ok ⟨["rows", "query", "calls"], []⟩, .ok ⟨["calls", "query", "rows"], [calledRow calls]⟩,
      .error ⟨.canceled, "statement timeout"⟩,
      .ok ⟨["setting"], [⟨[("setting", .text "5000")]⟩]⟩]⟩,
    ⟨⟩⟩

/-- Two such cycles, with five calls and then with eight. The course of the second one has an answer
to each of the four queries, since the first one has cast doubt on the columns. The number of
statements is not had, and yet no error is counted, and it is shown that one statement has grown. -/
theorem exists_course_uncountedCycle :
    let c := plainCollector.next (uncountedCycle 5)
    let cycle := uncountedCycle 8
    Interruptible.isRunning cycle.source = true ∧
    ∃ course : Course,
      c.transcript cycle = course.exchanges c.settings .empty ∧
      (∃ occupancy, course.occupancy = some occupancy ∧
        occupancy.count = .error ⟨.canceled, "statement timeout"⟩) ∧
      (let samples := (c.runCycle cycle.now cycle.timestamp cycle.source cycle.sink).diagnostics
      Diagnostic.named Collection.errorMetric samples = [] ∧
      Diagnostic.named Collection.rowsMetric samples =
        [⟨.gauge, Collection.rowsMetric, Float.ofNat 1, c.settings.tags⟩]) := by
  intro c cycle
  have hknown : c.columns = .empty := rfl
  have hsettings : c.settings = plainCollector.settings := settings_next _ _
  obtain ⟨course, htranscript, hfits, hoccupancy, -, hcounts, hgauge, -⟩ :=
    exists_course c cycle rfl
  have hinquiry : c.inquiry (Transcript.blank cycle.source) =
      plainCollector.inquiry (Transcript.blank cycle.source) := by
    rw [inquiry, inquiry, hknown, hsettings]
    rfl
  have hanswers : (c.transcript cycle).map Exchange.answer = cycle.source.answers := by
    rw [transcript_eq_inquiry, hinquiry]
    rfl
  rw [htranscript, Course.map_answer_exchanges] at hanswers
  obtain ⟨⟨discovery, statistics⟩, occupancy⟩ := course
  obtain ⟨discovered, rfl⟩ := Option.isSome_iff_exists.mp (hfits.discovery_iff.mpr hknown)
  -- four answers belong to a course only if nothing is left out of it
  rcases statistics with _ | selected <;> rcases occupancy with _ | occupancy <;>
    simp only [Option.toList_some, Option.toList_none, List.flatMap_nil, List.flatMap_singleton,
      List.nil_append, List.append_nil, List.cons_append, cycle, uncountedCycle, List.cons.injEq,
      reduceCtorEq, and_false] at hanswers
  obtain ⟨rfl, rfl, hcount, -⟩ := hanswers
  have hfails : ∀ tag, ¬ RowAnswers.Fails c.columns
      ⟨some (.ok ⟨["rows", "query", "calls"], []⟩),
        some (.ok ⟨["calls", "query", "rows"], [calledRow 8]⟩)⟩ tag := by
    rintro tag (⟨⟨⟩⟩ | ⟨hcolumns, hmissing⟩ | ⟨⟨⟩⟩)
    rw [hknown] at hcolumns
    obtain rfl := Option.some.inj hcolumns
    exact hmissing (by decide +kernel)
  have hredact : c.redact = plainCollector.redact := rfl
  have hstatement : Redaction.normalStatement? c.redact (calledRow 8) =
      some (calledStatement 8) := by
    rw [hredact]
    rfl
  have hstatements : Redaction.normalStatements c.redact [calledRow 8] = [calledStatement 8] :=
    List.filterMap_cons_some hstatement
  have hgrowth : (c.baselines.advance (watchedMetrics [calledStatement 8])
      NormalStatement.identity [calledStatement 8]).1.length = 1 := by
    decide +kernel
  refine ⟨rfl, _, hknown ▸ htranscript, ⟨_, rfl, hcount⟩, hcounts.of_not_fails hfails, ?_⟩
  rw [hgauge ⟨rfl, calledRow 8, List.mem_singleton_self _, calledStatement 8, hstatement⟩]
  simp only [RowAnswers.rows, hstatements, hgrowth]

end Collector

end QueryTelemetry
