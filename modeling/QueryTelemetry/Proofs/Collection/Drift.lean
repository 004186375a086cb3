import QueryTelemetry.Proofs.Collection.Discovery
import QueryTelemetry.Proofs.Concatenation

/-!
# Views that lack columns

The columns of the view are kept as they were found out, whether they are enough or not, until an
error casts doubt on them (`columns_after_of_not_doubts`). A cycle in which required columns are
missing asks for nothing but the columns (`transcript_of_lacksColumns`), so no error can cast doubt
on them: from then on every cycle that is running ends the same way, and nothing is asked any more,
also if the view has got the columns. In a run without such a cycle the columns that are known are
enough (`known_columns_complete_iff`).
-/

namespace QueryTelemetry

/-- The columns are known, and some that are required are not among them. -/
def ColumnCache.IsIncomplete (known : ColumnCache) : Prop :=
  ∃ columns, known = ⟨some columns⟩ ∧ Catalog.missingColumns columns ≠ []

theorem ColumnCache.not_isIncomplete_empty : ¬ ColumnCache.empty.IsIncomplete := by
  rintro ⟨columns, h, -⟩
  cases h

theorem ColumnCache.isIncomplete_known_iff {columns : List String} :
    IsIncomplete ⟨some columns⟩ ↔ Catalog.missingColumns columns ≠ [] := by
  refine ⟨?_, fun h => ⟨columns, rfl, h⟩⟩
  rintro ⟨other, hother, hmissing⟩
  rwa [Option.some.inj (ColumnCache.mk.inj hother)]

/-- Of the columns that have been found out, none is missing if all that are required are there. -/
theorem Catalog.missingColumns_sortedSet_eq_nil_iff {columns : List String} :
    missingColumns (Text.sortedSet columns) = [] ↔
      ∀ column ∈ ["calls", "query", "rows"], column ∈ columns := by
  rw [missingColumns_eq_nil_iff]
  exact forall₂_congr fun _ _ => Text.mem_sortedSet

section

variable {settings : Settings} {known : ColumnCache} {rows : List ViewRow}
  {exchanges : List Exchange}

/-- If the known columns are not enough, the statistics are not asked for. -/
theorem Selects.eq_nil_of_isIncomplete (h : Selects settings known rows exchanges)
    (hknown : known.IsIncomplete) : rows = [] ∧ exchanges = [] := by
  obtain ⟨columns, rfl, hmissing⟩ := hknown
  cases h with
  | incomplete => exact ⟨rfl, rfl⟩
  | refused hnone => exact absurd hnone hmissing
  | answered hnone => exact absurd hnone hmissing

theorem Measures.eq_nil (h : Measures [] exchanges) : exchanges = [] := by
  cases h with
  | nothing => rfl
  | occupancy hne => exact absurd rfl hne

/-- If the columns that are known at the end are not enough, a cycle has asked for nothing else than
the columns. -/
theorem Converses.eq_of_isIncomplete (h : Converses settings known exchanges)
    (hbehind : (exchanges.foldl (ColumnCache.learn settings.view) known).IsIncomplete) :
    exchanges = [] ∨
      ∃ result, exchanges = [⟨Catalog.discoveryQuery settings.view, [], .ok result⟩] := by
  obtain @⟨rows, found, selected, measured, hfound, hselected, hmeasured⟩ := h
  rw [List.foldl_append] at hbehind
  -- what is asked behind the discovery can only make the columns unknown
  have hincomplete : (found.foldl (ColumnCache.learn settings.view) known).IsIncomplete := by
    have hundiscovered : ∀ exchange ∈ selected ++ measured,
        exchange.discovered? settings.view = none := fun exchange hexchange =>
      Exchange.discovered?_of_ne (hselected.sql_ne_discoveryQuery hmeasured hexchange)
    by_cases hdoubts : ∃ exchange ∈ selected ++ measured, exchange.Doubts
    · rw [foldl_learn_of_doubts hundiscovered hdoubts] at hbehind
      exact absurd hbehind ColumnCache.not_isIncomplete_empty
    · rwa [foldl_learn_of_not_doubts hundiscovered fun exchange hexchange h =>
        hdoubts ⟨exchange, hexchange, h⟩] at hbehind
  obtain ⟨rfl, rfl⟩ := hselected.eq_nil_of_isIncomplete hincomplete
  obtain rfl := hmeasured.eq_nil
  rw [List.append_nil, List.append_nil]
  rcases hfound with columns | (e | result)
  · exact .inl rfl
  · have hnothing : ColumnCache.empty.learn settings.view
        ⟨Catalog.discoveryQuery settings.view, [], .error e⟩ = .empty := ite_self _
    rw [List.foldl_cons, List.foldl_nil, hnothing] at hincomplete
    exact absurd hincomplete ColumnCache.not_isIncomplete_empty
  · exact .inr ⟨result, rfl⟩

/-- Where the columns are found out and are enough, the statistics are asked for next. -/
theorem Converses.exists_statistics {result : QueryResult} {rest : List Exchange}
    (h : Converses settings known
      (⟨Catalog.discoveryQuery settings.view, [], .ok result⟩ :: rest))
    (hnone : Catalog.missingColumns (Text.sortedSet result.columns) = []) :
    ∃ answer later,
      rest = statisticsExchange settings (Text.sortedSet result.columns) answer :: later := by
  have hknown : known = .empty := h.exists_discovery_iff.mp ⟨_, List.mem_cons_self, rfl⟩
  subst hknown
  generalize hall : _ :: rest = exchanges at h
  obtain @⟨rows, found, selected, measured, hfound, hselected, hmeasured⟩ := h
  cases hfound with
  | discovery answer =>
    rw [List.singleton_append] at hall
    obtain ⟨hfirst, rfl⟩ := List.cons.inj hall
    obtain rfl : answer = .ok result := (Exchange.mk.inj hfirst).2.2.symm
    rw [List.foldl_cons, List.foldl_nil, ColumnCache.learn_discovery] at hselected
    rcases hselected with _ | hmissing | ⟨_, e⟩ | ⟨_, statistics⟩
    · exact absurd hnone hmissing
    · exact ⟨.error e, measured, rfl⟩
    · exact ⟨.ok statistics, measured, rfl⟩

end

namespace Inquiry

variable {σ : Type} [Source σ] {settings : Settings} {i j : Inquiry σ} {columns : List String}

/-! ### Columns that are forgotten -/

/-- No other columns are known than these. -/
def KnowsAtMost (columns : List String) (i : Inquiry σ) : Prop :=
  i.columns = ⟨some columns⟩ ∨ i.columns = .empty

theorem KnowsAtMost.ask (h : KnowsAtMost columns i) (sql : String) (parameters : List String) :
    KnowsAtMost columns ((ask sql parameters).run i).2 := by
  rw [ask_run]
  rcases (Source.query sql parameters i.source).1 with e | result
  · by_cases hdoubts : e.kind.doubtsColumns = true
    · exact .inr (if_pos hdoubts)
    · simpa only [KnowsAtMost, if_neg hdoubts] using h
  · exact h

theorem KnowsAtMost.reportNumber (h : KnowsAtMost columns i) (settings : Settings)
    (metric sql column : String) :
    KnowsAtMost columns ((reportNumber settings metric sql column).run i).2 := by
  have hask := h.ask sql []
  rw [Inquiry.reportNumber, run_bind]
  generalize (Inquiry.ask sql []).run i = answered at hask ⊢
  obtain ⟨answer, j⟩ := answered
  rcases answer with e | result
  · exact hask
  · simp only
    rcases firstNumber? column result with _ | value
    · exact hask
    · exact hask

theorem KnowsAtMost.reportOccupancy (h : KnowsAtMost columns i) (settings : Settings) :
    KnowsAtMost columns ((reportOccupancy settings).run i).2 := by
  have hversion : KnowsAtMost columns (serverVersion.run i).2 := h
  rw [Inquiry.reportOccupancy, run_bind, run_bind]
  exact (hversion.reportNumber settings _ _ _).reportNumber settings _ _ _

omit [Source σ] in
theorem KnowsAtMost.not_isIncomplete (h : KnowsAtMost columns i)
    (hnone : Catalog.missingColumns columns = []) : ¬ i.columns.IsIncomplete := by
  rcases h with h | h
  · rw [h, ColumnCache.isIncomplete_known_iff, not_not]
    exact hnone
  · rw [h]
    exact ColumnCache.not_isIncomplete_empty

variable [Interruptible σ]

/-- A cycle ends for missing columns exactly if it is running and incomplete columns are known
behind it. -/
theorem exists_incomplete_iff (settings : Settings) (i : Inquiry σ)
    (hrunning : Interruptible.isRunning i.source = true) :
    (∃ missing, retrieval settings i = .incomplete missing) ↔
      ((gather settings).run i).2.columns.IsIncomplete := by
  have hknown := columns_availableColumns settings i
  rw [retrieval, if_pos hrunning, gather_of_running hrunning]
  rcases havailable : (availableColumns settings).run i with ⟨e | available, j⟩ <;>
    rw [havailable] at hknown <;> simp only at hknown ⊢
  · rw [fetch_of_undiscovered havailable]
    refine iff_of_false (by simp) ?_
    change ¬ j.columns.IsIncomplete
    rw [hknown]
    exact ColumnCache.not_isIncomplete_empty
  rcases hmissing : (Catalog.missingColumns available).isEmpty with _ | _
  · obtain ⟨entry, hfetch⟩ := fetch_of_incomplete havailable hmissing
    rw [hfetch]
    exact iff_of_true ⟨_, rfl⟩ ⟨available, hknown, by simpa using hmissing⟩
  · have hnone : Catalog.missingColumns available = [] := List.isEmpty_iff.mp hmissing
    have hask := KnowsAtMost.ask (.inl hknown) (statisticsRequest settings available).1
      (statisticsRequest settings available).2
    rw [fetch_of_available havailable hmissing, if_pos rfl]
    generalize (Inquiry.ask _ _).run j = answered at hask ⊢
    obtain ⟨answer, k⟩ := answered
    rcases answer with e | result
    · exact iff_of_false (by simp) (hask.not_isIncomplete hnone)
    · refine iff_of_false ?_ ?_
      · simp only
        split <;> simp
      · simp only
        split
        · exact hask.not_isIncomplete hnone
        · exact (hask.reportOccupancy settings).not_isIncomplete hnone

end Inquiry

namespace Collector

variable {σ τ : Type} [Source σ] [Interruptible σ]

/-- A cycle ends because required columns are missing. -/
def LacksColumns (c : Collector) (source : σ) : Prop :=
  ∃ missing, c.retrieval source = .incomplete missing

variable [EventSink τ] {c : Collector} {cycle : Cycle σ τ} {before : List (Cycle σ τ)}

/-- There has been a cycle that ended because required columns were missing. -/
def HasLackedColumns (c : Collector) (before : List (Cycle σ τ)) : Prop :=
  ∃ earlier cycle later,
    before = earlier ++ cycle :: later ∧ (c.after earlier).LacksColumns cycle.source

/-! ### One cycle -/

/-- What is known behind a cycle is what is known behind its questions. -/
theorem columns_next_eq_inquiry (c : Collector) (cycle : Cycle σ τ) :
    (c.next cycle).columns = (c.inquiry cycle.source).columns := by
  have hgather := Inquiry.commutes_gather Transcript.isSourceMap_source c.settings
    ⟨Transcript.blank cycle.source, c.columns, [], []⟩
  rw [columns_next_eq_transcript, inquiry, inquiry]
  exact (congrArg (fun run => run.2.columns) hgather).symm

theorem lacksColumns_iff (hrunning : Interruptible.isRunning cycle.source = true) :
    c.LacksColumns cycle.source ↔ (c.next cycle).columns.IsIncomplete := by
  rw [columns_next_eq_inquiry]
  exact Inquiry.exists_incomplete_iff c.settings ⟨cycle.source, c.columns, [], []⟩ hrunning

omit [EventSink τ] in
theorem not_lacksColumns_of_stopped {source : σ}
    (hstopped : Interruptible.isRunning source = false) : ¬ c.LacksColumns source := by
  rintro ⟨missing, h⟩
  rw [retrieval, Inquiry.retrieval, if_neg (Bool.not_eq_true _ ▸ hstopped)] at h
  cases h

/-- A cycle that ends because required columns are missing ends without rows. -/
theorem outcome_of_lacksColumns {source : σ} (h : c.LacksColumns source) (now : Instant)
    (timestamp : Float) (sink : τ) :
    (c.runCycle now timestamp source sink).outcome = .noRows := by
  obtain ⟨missing, h⟩ := h
  have hgathered := Inquiry.gather_run_fst c.settings ⟨source, c.columns, [], []⟩
  rw [← retrieval, h] at hgathered
  rw [runCycle]
  generalize (Inquiry.gather c.settings).run ⟨source, c.columns, [], []⟩ = inquiry at hgathered ⊢
  obtain ⟨gathered, i⟩ := inquiry
  rw [show gathered = .error .noRows from hgathered]

theorem columns_next_of_stopped (hstopped : Interruptible.isRunning cycle.source = false) :
    (c.next cycle).columns = c.columns := by
  rw [columns_next, (transcript_of_stopped hstopped).1]
  rfl

/-- Known columns are not found out anew in a cycle. -/
theorem discovered?_of_mem_transcript {columns : List String}
    (hknown : c.columns = ⟨some columns⟩) :
    ∀ exchange ∈ c.transcript cycle, exchange.discovered? c.settings.view = none := by
  intro exchange hexchange
  rcases hrunning : Interruptible.isRunning cycle.source with _ | _
  · rw [(transcript_of_stopped hrunning).1] at hexchange
    cases hexchange
  · obtain ⟨hconverses, -⟩ := transcript_of_running hrunning
    rw [hknown] at hconverses
    exact hconverses.discovered?_eq_none hexchange

/-- Known columns are kept in a cycle in which no error casts doubt on them. -/
theorem columns_next_of_not_doubts {columns : List String} (hknown : c.columns = ⟨some columns⟩)
    (hnone : ∀ exchange ∈ c.transcript cycle, ¬ exchange.Doubts) :
    (c.next cycle).columns = ⟨some columns⟩ := by
  rw [columns_next, foldl_learn_of_not_doubts (discovered?_of_mem_transcript hknown) hnone, hknown]

/-- They are forgotten in any other. -/
theorem columns_next_of_doubts {columns : List String} (hknown : c.columns = ⟨some columns⟩)
    (hdoubts : ∃ exchange ∈ c.transcript cycle, exchange.Doubts) :
    (c.next cycle).columns = .empty := by
  rw [columns_next, foldl_learn_of_doubts (discovered?_of_mem_transcript hknown) hdoubts]

/-- A cycle that ends because required columns are missing asks for nothing, or for the columns, and
then required ones are not among them. -/
theorem transcript_of_lacksColumns (h : c.LacksColumns cycle.source) :
    c.transcript cycle = [] ∨
      ∃ result, c.transcript cycle = [⟨Catalog.discoveryQuery c.settings.view, [], .ok result⟩] ∧
        (c.next cycle).columns = .fill result.columns ∧
        ¬ ∀ column ∈ ["calls", "query", "rows"], column ∈ result.columns := by
  have hrunning : Interruptible.isRunning cycle.source = true :=
    Bool.of_not_eq_false fun hstopped => not_lacksColumns_of_stopped hstopped h
  have hincomplete := (lacksColumns_iff hrunning).mp h
  obtain ⟨hconverses, hcolumns⟩ := transcript_of_running hrunning
  have hlearned := hcolumns ▸ hincomplete
  refine (hconverses.eq_of_isIncomplete hlearned).imp_right fun ⟨result, htranscript⟩ => ?_
  have hnext : (c.next cycle).columns = .fill result.columns := by
    rw [hcolumns, htranscript, List.foldl_cons, List.foldl_nil, ColumnCache.learn_discovery]
  have hmissing := ColumnCache.isIncomplete_known_iff.mp (hnext ▸ hincomplete)
  exact ⟨result, htranscript, hnext,
    fun hall => hmissing (Catalog.missingColumns_sortedSet_eq_nil_iff.mpr hall)⟩

/-- If the known columns are not enough, nothing is asked. -/
theorem transcript_of_isIncomplete (h : c.columns.IsIncomplete) : c.transcript cycle = [] := by
  rcases hrunning : Interruptible.isRunning cycle.source with _ | _
  · exact (transcript_of_stopped hrunning).1
  obtain ⟨hconverses, -⟩ := transcript_of_running hrunning
  generalize c.transcript cycle = exchanges at hconverses ⊢
  generalize c.columns = known at h hconverses
  obtain @⟨rows, found, selected, measured, hfound, hselected, hmeasured⟩ := hconverses
  rcases hfound with columns | answer
  · obtain ⟨rfl, rfl⟩ := hselected.eq_nil_of_isIncomplete h
    exact hmeasured.eq_nil
  · exact absurd h ColumnCache.not_isIncomplete_empty

/-- They are kept then. -/
theorem columns_next_of_isIncomplete (h : c.columns.IsIncomplete) :
    (c.next cycle).columns = c.columns := by
  rw [columns_next, transcript_of_isIncomplete h]
  rfl

/-! ### Runs -/

theorem hasLackedColumns_concat :
    c.HasLackedColumns (before ++ [cycle]) ↔
      c.HasLackedColumns before ∨ (c.after before).LacksColumns cycle.source := by
  constructor
  · rintro ⟨earlier, lacking, later, hbefore, hlacks⟩
    rcases concat_eq_append_cons hbefore with ⟨between, rfl, -⟩ | ⟨rfl, rfl, -⟩
    · exact .inl ⟨earlier, lacking, between, rfl, hlacks⟩
    · exact .inr hlacks
  · rintro (⟨earlier, lacking, later, rfl, hlacks⟩ | hlacks)
    · exact ⟨earlier, lacking, later ++ [cycle], by simp, hlacks⟩
    · exact ⟨before, cycle, [], rfl, hlacks⟩

/-- The known columns are not enough exactly behind a cycle in which they were not. -/
theorem isIncomplete_after_iff (hc : c.columns = .empty) (before : List (Cycle σ τ)) :
    (c.after before).columns.IsIncomplete ↔ c.HasLackedColumns before := by
  induction before using List.reverseRecOn with
  | nil =>
    refine iff_of_false ?_ ?_
    · rw [after, List.foldl_nil, hc]
      exact ColumnCache.not_isIncomplete_empty
    · rintro ⟨earlier, cycle, later, h, -⟩
      exact List.append_ne_nil_of_right_ne_nil earlier (List.cons_ne_nil cycle later) h.symm
  | append_singleton before cycle ih =>
    have hafter : c.after (before ++ [cycle]) = (c.after before).next cycle := by
      rw [after, List.foldl_append]
      rfl
    rw [hafter, hasLackedColumns_concat, ← ih]
    rcases hrunning : Interruptible.isRunning cycle.source with _ | _
    · rw [columns_next_of_stopped hrunning, or_iff_left (not_lacksColumns_of_stopped hrunning)]
    · rw [lacksColumns_iff hrunning]
      refine ⟨.inr, fun h => h.elim (fun h => ?_) id⟩
      rwa [columns_next_of_isIncomplete h]

/-- Known columns are kept in a run as long as no error casts doubt on them. -/
theorem columns_after_of_not_doubts {columns : List String} (hknown : c.columns = ⟨some columns⟩)
    (later : List (Cycle σ τ)) (hnone : ∀ exchange ∈ c.history later, ¬ exchange.Doubts) :
    (c.after later).columns = ⟨some columns⟩ := by
  induction later generalizing c with
  | nil => exact hknown
  | cons cycle later ih =>
    rw [history, List.forall_mem_append] at hnone
    exact ih (columns_next_of_not_doubts hknown hnone.1) hnone.2

/-- Where the columns are found out, this is the first thing that is asked, and if they are enough
the statistics are the second. -/
theorem exists_statistics_of_discovery {earlier later : List Exchange} {exchange : Exchange}
    {result : QueryResult} (htranscript : c.transcript cycle = earlier ++ exchange :: later)
    (hsql : exchange.sql = Catalog.discoveryQuery c.settings.view)
    (hanswer : exchange.answer = .ok result)
    (hall : ∀ column ∈ ["calls", "query", "rows"], column ∈ result.columns) :
    earlier = [] ∧ ∃ answer rest,
      later = statisticsExchange c.settings (Text.sortedSet result.columns) answer :: rest := by
  have hrunning : Interruptible.isRunning cycle.source = true := by
    refine Bool.of_not_eq_false fun hstopped => ?_
    rw [(transcript_of_stopped hstopped).1] at htranscript
    exact List.append_ne_nil_of_right_ne_nil earlier (List.cons_ne_nil exchange later)
      htranscript.symm
  obtain ⟨hconverses, -⟩ := transcript_of_running hrunning
  rw [htranscript] at hconverses
  obtain ⟨rfl, hexchange⟩ := hconverses.eq_discovery hsql
  rw [List.nil_append, hexchange, hanswer] at hconverses
  exact ⟨rfl, hconverses.exists_statistics (Catalog.missingColumns_sortedSet_eq_nil_iff.mpr hall)⟩

/-- In any run of a collector that knows nothing at the start, columns that are known are enough
unless an earlier cycle has ended because required columns were missing. They are kept until a query
fails because it was cancelled, because the server did not accept it, or because there was no view,
and then they are forgotten. A cycle that ends because required columns are missing has no rows, and
asks for nothing but the columns, if for anything. Behind such a cycle the columns that are known
stay what they are, nothing is asked, and every cycle that is running ends for the same reason and
without rows. In any cycle in which the columns are asked for and the answer has those that are
required, the next question is that for the statistics. -/
theorem known_columns_complete_iff (c : Collector) (hc : c.columns = .empty)
    (before : List (Cycle σ τ)) :
    (∀ columns, (c.after before).columns = ⟨some columns⟩ →
      ((∀ column ∈ ["calls", "query", "rows"], column ∈ columns) ↔
        ¬ c.HasLackedColumns before) ∧
      (∀ later : List (Cycle σ τ),
        (¬ ∃ exchange ∈ (c.after before).history later, ∃ e, exchange.answer = .error e ∧
          e.kind ∈ [.canceled, .programming, .extensionNotCreated]) →
        (c.after (before ++ later)).columns = ⟨some columns⟩) ∧
      ∀ cycle : Cycle σ τ,
        (∃ exchange ∈ (c.after before).transcript cycle, ∃ e, exchange.answer = .error e ∧
          e.kind ∈ [.canceled, .programming, .extensionNotCreated]) →
        ((c.after before).next cycle).columns = .empty) ∧
    (∀ cycle : Cycle σ τ, (c.after before).LacksColumns cycle.source →
      ((c.after before).runCycle cycle.now cycle.timestamp cycle.source cycle.sink).outcome =
        .noRows ∧
      ((c.after before).transcript cycle = [] ∨
        ∃ result,
          (c.after before).transcript cycle =
            [⟨Catalog.discoveryQuery c.settings.view, [], .ok result⟩] ∧
          ((c.after before).next cycle).columns = .fill result.columns ∧
          ¬ ∀ column ∈ ["calls", "query", "rows"], column ∈ result.columns)) ∧
    (c.HasLackedColumns before →
      (c.after before).columns.isValid = true ∧
      ∀ cycle : Cycle σ τ,
        ((c.after before).next cycle).columns = (c.after before).columns ∧
        (c.after before).transcript cycle = [] ∧
        (Interruptible.isRunning cycle.source = true →
          (c.after before).LacksColumns cycle.source ∧
          ((c.after before).runCycle cycle.now cycle.timestamp cycle.source cycle.sink).outcome =
            .noRows)) ∧
    ∀ (cycle : Cycle σ τ) (earlier later : List Exchange) (exchange : Exchange)
      (result : QueryResult),
      (c.after before).transcript cycle = earlier ++ exchange :: later →
      exchange.sql = Catalog.discoveryQuery c.settings.view →
      exchange.answer = .ok result →
      (∀ column ∈ ["calls", "query", "rows"], column ∈ result.columns) →
      earlier = [] ∧ ∃ answer rest,
        later = statisticsExchange c.settings (Text.sortedSet result.columns) answer :: rest := by
  have hiff := isIncomplete_after_iff hc before
  have hsettings := c.settings_after before
  refine ⟨fun columns hcolumns => ⟨?_, fun later hnone => ?_, fun cycle hdoubts => ?_⟩,
    fun cycle hlacks => ⟨?_, ?_⟩, fun hlacked => ?_,
    fun cycle earlier later exchange result htranscript hsql hanswer hall => ?_⟩
  · rw [← hiff, hcolumns, ColumnCache.isIncomplete_known_iff, not_not]
    exact Catalog.missingColumns_eq_nil_iff.symm
  · rw [after, List.foldl_append]
    refine columns_after_of_not_doubts hcolumns later fun exchange hexchange hdoubts => ?_
    exact hnone ⟨exchange, hexchange, hdoubts⟩
  · exact columns_next_of_doubts hcolumns hdoubts
  · exact outcome_of_lacksColumns hlacks cycle.now cycle.timestamp cycle.sink
  · rw [← hsettings]
    exact transcript_of_lacksColumns hlacks
  · have hknown := hiff.mpr hlacked
    refine ⟨?_, fun cycle => ⟨columns_next_of_isIncomplete hknown,
      transcript_of_isIncomplete hknown, fun hrunning => ?_⟩⟩
    · obtain ⟨columns, hcolumns, -⟩ := hknown
      rw [hcolumns]
      rfl
    · have hnext : ((c.after before).next cycle).columns.IsIncomplete := by
        rwa [columns_next_of_isIncomplete hknown]
      have hlacks := (lacksColumns_iff hrunning).mpr hnext
      exact ⟨hlacks, outcome_of_lacksColumns hlacks cycle.now cycle.timestamp cycle.sink⟩
  · rw [← hsettings] at hsql ⊢
    exact exists_statistics_of_discovery htranscript hsql hanswer hall

/-! ### A view that gets its columns -/

/-- A cycle in which the view has no column for the rows. -/
def lackingCycle : Cycle Replying Drain := ⟨0, 0.0, ⟨.ok ⟨["query", "calls"], []⟩⟩, ⟨⟩⟩

/-- When a required column was missing once, the collector goes on without asking, also where the
view has it. Columns that are enough are kept from cycle to cycle, until the server does not accept
a query. -/
theorem known_columns_complete_after_lackingCycle :
    plainCollector.columns = .empty ∧
      plainCollector.HasLackedColumns [lackingCycle] ∧
      ¬ (∀ column ∈ ["calls", "query", "rows"], column ∈ ["calls", "query"]) ∧
      (∃ result, plainCollector.transcript lackingCycle =
        [⟨Catalog.discoveryQuery plainCollector.settings.view, [], .ok result⟩]) ∧
      (plainCollector.after [lackingCycle]).transcript answeredCycle = [] ∧
      (plainCollector.after [lackingCycle]).LacksColumns answeredCycle.source ∧
      (plainCollector.after [answeredCycle, answeredCycle]).columns =
        ⟨some ["calls", "query", "rows", "userid"]⟩ ∧
      ((plainCollector.after [answeredCycle]).next rejectedCycle).columns = .empty ∧
      ∃ answer rest, plainCollector.transcript answeredCycle =
        ⟨Catalog.discoveryQuery plainCollector.settings.view, [], answeredCycle.source.reply⟩ ::
          statisticsExchange .default ["calls", "query", "rows", "userid"] answer :: rest := by
  have hlacks : plainCollector.LacksColumns lackingCycle.source :=
    (lacksColumns_iff rfl).mpr ⟨["calls", "query"], by decide +kernel, by decide +kernel⟩
  have hlacked : plainCollector.HasLackedColumns [lackingCycle] :=
    ⟨[], lackingCycle, [], rfl, hlacks⟩
  obtain ⟨-, hends, -, hdiscovery⟩ := known_columns_complete_iff plainCollector rfl
    ([] : List (Cycle Replying Drain))
  obtain ⟨hcomplete, -, hstays, -⟩ := known_columns_complete_iff plainCollector rfl [lackingCycle]
  obtain ⟨hkept, -⟩ := known_columns_complete_iff plainCollector rfl [answeredCycle]
  obtain ⟨-, hnext⟩ := hstays hlacked
  obtain ⟨-, htranscript, hrunning⟩ := hnext answeredCycle
  have hcolumns : (plainCollector.after [lackingCycle]).columns = ⟨some ["calls", "query"]⟩ := by
    decide +kernel
  have hanswered : (plainCollector.after [answeredCycle]).columns =
      ⟨some ["calls", "query", "rows", "userid"]⟩ := by
    decide +kernel
  obtain ⟨-, hwithoutDoubt, hforgotten⟩ := hkept _ hanswered
  refine ⟨rfl, hlacked, fun h => (hcomplete _ hcolumns).1.mp h hlacked, ?_, htranscript,
    (hrunning rfl).1, hwithoutDoubt [answeredCycle] ?_, hforgotten rejectedCycle ?_, ?_⟩
  · rcases (hends lackingCycle hlacks).2 with hnothing | ⟨result, hresult, -⟩
    · cases hnothing
    · exact ⟨result, hresult⟩
  · rintro ⟨exchange, hexchange, e, he, -⟩
    have hhistory : (plainCollector.after [answeredCycle]).history [answeredCycle] =
        [statisticsExchange .default ["calls", "query", "rows", "userid"]
          answeredCycle.source.reply] := rfl
    rw [hhistory, List.mem_singleton] at hexchange
    rw [hexchange] at he
    cases he
  · have htranscript : (plainCollector.after [answeredCycle]).transcript rejectedCycle =
        [statisticsExchange .default ["calls", "query", "rows", "userid"]
          rejectedCycle.source.reply] := rfl
    rw [htranscript]
    exact ⟨_, List.mem_cons_self, _, rfl, by decide⟩
  · have htranscript : plainCollector.transcript answeredCycle =
        [] ++ ⟨Catalog.discoveryQuery plainCollector.settings.view, [],
            answeredCycle.source.reply⟩ ::
          [statisticsExchange .default ["calls", "query", "rows", "userid"]
            answeredCycle.source.reply] := rfl
    obtain ⟨-, answer, rest, hlater⟩ :=
      hdiscovery answeredCycle _ _ _ _ htranscript rfl rfl (by decide +kernel)
    have hcolumns : Text.sortedSet ["userid", "rows", "query", "calls"] =
        ["calls", "query", "rows", "userid"] := by
      decide +kernel
    refine ⟨answer, rest, ?_⟩
    rw [htranscript, hlater, hcolumns]
    rfl

/-- The known columns need not be enough at the start of a cycle, and a cycle that ends for missing
columns is not followed by a new discovery. -/
theorem not_discovers_after_lackingCycle :
    (plainCollector.after [lackingCycle]).columns = ⟨some ["calls", "query"]⟩ ∧
      plainCollector.LacksColumns lackingCycle.source ∧
      Interruptible.isRunning answeredCycle.source = true ∧
      ¬ ∃ exchange ∈ (plainCollector.after [lackingCycle]).transcript answeredCycle,
        exchange.sql = Catalog.discoveryQuery plainCollector.settings.view := by
  have hcolumns : (plainCollector.next lackingCycle).columns = ⟨some ["calls", "query"]⟩ := by
    decide +kernel
  refine ⟨hcolumns, (lacksColumns_iff rfl).mpr ⟨_, hcolumns, by decide +kernel⟩, rfl, ?_⟩
  have htranscript : (plainCollector.after [lackingCycle]).transcript answeredCycle = [] := rfl
  rw [htranscript]
  rintro ⟨exchange, hexchange, -⟩
  cases hexchange

end Collector

end QueryTelemetry
