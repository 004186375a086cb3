import QueryTelemetry.Proofs.Collection.Discovery
import QueryTelemetry.Proofs.Runs
import QueryTelemetry.Proofs.Settings

/-!
# The queries of a collector

Whatever the settings are and whatever the source answers, a collector sends queries of a few forms
only (`IsRequest`). What it puts into them are names of columns that it knows, a plain name of a
view and a number; the name of the database goes with the query as a parameter, in which case there
is one place for it (`IsRequest.count_eq_length`).
-/

namespace QueryTelemetry

namespace Catalog

/-! ### Places for parameters -/

/-- Where a query takes a parameter. -/
def placeholder : String := "$1"

theorem toList_toString (n : Nat) : (toString n).toList = Nat.toDigits 10 n := by
  rw [Nat.toString_eq_repr, Nat.toList_repr]

theorem count_toString (n : Nat) : (toString n).toList.count '$' = 0 := by
  rw [toList_toString, List.count_eq_zero]
  exact fun h => absurd ((isDigits_toDigits n).2 _ h) (by decide)

/-- The places of a query over a view are those of what is put into it. -/
theorem count_statisticsQuery (columns view filters : String) (limit : Nat) :
    (statisticsQuery columns view filters limit).toList.count '$' =
      columns.toList.count '$' + view.toList.count '$' + filters.toList.count '$' := by
  have hfixed : (statisticsQuery "" "" "" 0).toList.count '$' = 0 := by
    unfold statisticsQuery
    simp only [String.toList_append, List.count_append]
    decide +kernel
  have hnone : "".toList.count '$' = 0 := rfl
  unfold statisticsQuery at hfixed ⊢
  simp only [String.toList_append, List.count_append, count_toString] at hfixed ⊢
  -- a sum is zero if every part of it is
  simp only [Nat.add_eq_zero_iff, hnone] at hfixed
  simp only [hfixed, Nat.add_zero, Nat.zero_add]

/-- No wanted column has a place for a parameter. -/
theorem count_intercalate {columns : List String}
    (h : ∀ column ∈ columns, column ∈ desiredColumns) :
    (", ".intercalate columns).toList.count '$' = 0 := by
  have hdesired : ∀ column ∈ desiredColumns, column.toList.count '$' = 0 := by decide +kernel
  have hcomma : ", ".toList.count '$' = 0 := by decide +kernel
  induction columns with
  | nil => rfl
  | cons first rest ih =>
    have hfirst := hdesired first (h first List.mem_cons_self)
    have hrest := ih fun column hcolumn => h column (List.mem_cons_of_mem first hcolumn)
    rcases rest with _ | ⟨second, rest⟩
    · simpa using hfirst
    · rw [String.intercalate_cons_cons, String.toList_append, String.toList_append,
        List.count_append, List.count_append, hfirst, hcomma, hrest]

/-- The condition of a query over a view stands in it. -/
theorem isInfix_statisticsQuery (columns view filters : String) (limit : Nat) :
    filters.toList <:+: (statisticsQuery columns view filters limit).toList := by
  have hbehind {text : String} (h : filters.toList <:+: text.toList) (more : String) :
      filters.toList <:+: (text ++ more).toList := by
    rw [String.toList_append]
    exact h.trans (List.prefix_append _ _).isInfix
  unfold statisticsQuery
  refine hbehind (hbehind (hbehind ?_ _) _) _
  rw [String.toList_append]
  exact (List.suffix_append _ _).isInfix

end Catalog

/-! ### Requests -/

/-- What a collector may ask for, with its parameters. -/
inductive IsRequest (settings : Settings) : String → List String → Prop
  /-- How full the view is. -/
  | occupancy {sql : String}
      (h : sql ∈ [Catalog.countQuery, Catalog.countQueryWithTexts, Catalog.capacityQuery]) :
    IsRequest settings sql []
  /-- The columns of the view. -/
  | discovery : IsRequest settings (Catalog.discoveryQuery settings.view) []
  /-- The statistics: some of the wanted columns, each once. -/
  | statistics {columns : List String} (hne : columns ≠ []) (hdistinct : columns.Nodup)
      (hdesired : ∀ column ∈ columns, column ∈ Catalog.desiredColumns) :
    IsRequest settings
      (Catalog.statisticsQuery (", ".intercalate columns) settings.view
        (if settings.onlyDatabase then Catalog.databaseFilter else "") settings.rowLimit)
      (if settings.onlyDatabase then [settings.database] else [])

theorem Settings.count_of_isPlainName {name : String} (h : isPlainName name = true) :
    name.toList.count '$' = 0 := by
  rw [List.count_eq_zero]
  intro hmem
  have hplain := (Bool.and_eq_true_iff.mp h).2
  exact absurd (List.all_eq_true.mp hplain _ hmem) (by decide)

/-- A request has as many places as parameters. -/
theorem IsRequest.count_eq_length {settings : Settings} {sql : String} {parameters : List String}
    (h : IsRequest settings sql parameters) (hview : Settings.isPlainName settings.view = true) :
    sql.toList.count '$' = parameters.length := by
  have hnone := Settings.count_of_isPlainName hview
  rcases h with ⟨h⟩ | _ | ⟨-, -, hdesired⟩
  · have hfixed : ∀ sql ∈ [Catalog.countQuery, Catalog.countQueryWithTexts,
        Catalog.capacityQuery], sql.toList.count '$' = 0 := by
      decide +kernel
    exact hfixed sql h
  · rw [Catalog.discoveryQuery, Catalog.count_statisticsQuery, hnone]
    decide +kernel
  · rw [Catalog.count_statisticsQuery, Catalog.count_intercalate hdesired, hnone]
    have hfilter : Catalog.databaseFilter.toList.count '$' = 1 := by decide +kernel
    split
    · rw [hfilter, List.length_singleton]
    · rfl

/-- It has a place for a parameter exactly if there is one. -/
theorem IsRequest.placeholder_iff {settings : Settings} {sql : String} {parameters : List String}
    (h : IsRequest settings sql parameters) (hview : Settings.isPlainName settings.view = true) :
    Catalog.placeholder.toList <:+: sql.toList ↔ parameters ≠ [] := by
  have hcount := h.count_eq_length hview
  have hdollar : '$' ∈ Catalog.placeholder.toList := by decide +kernel
  refine ⟨fun hstands hnone => ?_, fun hsome => ?_⟩
  · rw [hnone, List.length_nil, List.count_eq_zero] at hcount
    exact hcount (hstands.subset hdollar)
  · rcases h with _ | _ | _
    · exact absurd rfl hsome
    · exact absurd rfl hsome
    · have hdatabase : settings.onlyDatabase = true := by
        by_contra hall
        exact hsome (if_neg hall)
      have hfilter : Catalog.placeholder.toList <:+: Catalog.databaseFilter.toList := by
        decide +kernel
      rw [if_pos hdatabase]
      exact hfilter.trans (Catalog.isInfix_statisticsQuery _ _ _ _)

/-! ### Runs -/

namespace ColumnCache

/-- Known columns are in order. -/
def InOrder (known : ColumnCache) : Prop :=
  ∀ columns, known.columns = some columns → columns.Pairwise (· < ·)

theorem inOrder_empty : empty.InOrder := fun _ h => nomatch h

variable {known : ColumnCache} {view : String}

theorem InOrder.learn (h : known.InOrder) (exchange : Exchange) :
    (known.learn view exchange).InOrder := by
  rw [ColumnCache.learn]
  rcases exchange.answer with e | result
  · simp only
    split
    · exact inOrder_empty
    · exact h
  · simp only
    split
    · rintro columns hcolumns
      obtain rfl := Option.some.inj hcolumns
      exact Text.pairwise_sortedSet result.columns
    · exact h

theorem InOrder.foldl_learn (h : known.InOrder) (exchanges : List Exchange) :
    (exchanges.foldl (ColumnCache.learn view) known).InOrder := by
  induction exchanges generalizing known with
  | nil => exact h
  | cons exchange exchanges ih => exact ih (h.learn exchange)

end ColumnCache

theorem statisticsRequest_snd (settings : Settings) (columns : List String) :
    (Inquiry.statisticsRequest settings columns).2 =
      if settings.onlyDatabase then [settings.database] else [] := by
  rw [Inquiry.statisticsRequest]
  split <;> rfl

/-- With columns in order, a cycle sends requests only. -/
theorem Converses.isRequest {settings : Settings} {known : ColumnCache} {exchanges : List Exchange}
    (h : Converses settings known exchanges) (hknown : known.InOrder) {exchange : Exchange}
    (hexchange : exchange ∈ exchanges) :
    IsRequest settings exchange.sql exchange.parameters := by
  obtain @⟨rows, found, selected, measured, hfound, hselected, hmeasured⟩ := h
  rcases List.mem_append.mp hexchange with hexchange | hexchange
  · rcases hfound with _ | answer
    · cases hexchange
    · rw [List.mem_singleton.mp hexchange]
      exact .discovery
  rcases List.mem_append.mp hexchange with hexchange | hexchange
  · obtain ⟨-, columns, hcolumns, hnone, hstatistics⟩ := hselected.eq_of_mem hexchange
    have hpairwise : columns.Pairwise (· < ·) :=
      hknown.foldl_learn found columns (congrArg ColumnCache.columns hcolumns)
    have hcalls : "calls" ∈ Catalog.selectedColumns columns :=
      Catalog.mem_selectedColumns_of_required hnone (by decide)
    rw [hstatistics, statisticsExchange, statisticsRequest_fst, statisticsRequest_snd]
    exact .statistics (List.ne_nil_of_mem hcalls)
      ((Catalog.pairwise_selectedColumns hpairwise).imp fun h => ne_of_lt h)
      fun column hcolumn => (Catalog.mem_selectedColumns.mp hcolumn).2
  · have hsql := hmeasured.sql_mem hexchange
    have hparameters : exchange.parameters = [] := by
      rcases hmeasured with _ | ⟨_, version, count, capacity⟩
      · cases hexchange
      · rcases List.mem_pair.mp hexchange with rfl | rfl <;> rfl
    rw [hparameters]
    exact .occupancy hsql

namespace Collector

variable {σ τ : Type} [Source σ] [Interruptible σ] [EventSink τ]

/-- A run sends requests only. -/
theorem isRequest_of_mem_history {c : Collector} (hc : c.columns.InOrder)
    (cycles : List (Cycle σ τ)) :
    ∀ exchange ∈ c.history cycles, IsRequest c.settings exchange.sql exchange.parameters := by
  induction cycles generalizing c with
  | nil => exact fun _ h => nomatch h
  | cons cycle cycles ih =>
    intro exchange hexchange
    rcases List.mem_append.mp hexchange with hexchange | hexchange
    · have hrunning : Interruptible.isRunning cycle.source = true := by
        refine Bool.of_not_eq_false fun hstopped => ?_
        rw [(transcript_of_stopped hstopped).1] at hexchange
        cases hexchange
      exact (transcript_of_running hrunning).1.isRequest hc hexchange
    · rw [← settings_next c cycle]
      refine ih ?_ exchange hexchange
      rw [columns_next]
      exact hc.foldl_learn _

end Collector

end QueryTelemetry
