import Mathlib.Data.List.DropRight
import QueryTelemetry.Proofs.Collection.Conservation
import QueryTelemetry.Proofs.Collection.Transcript

/-!
# When the columns are found out

What is known of the columns comes from the last discovery that has succeeded, unless an error has
cast doubt on it since then (`knows_foldl_learn`). So a cycle that is running asks for the columns
exactly if there has been no such discovery, or if there has been such an error; and a query for the
statistics selects, of the columns that were found in the discovery, those that are wanted
(`discovers_iff`).
-/

namespace QueryTelemetry

/-! ### Discoveries and doubts -/

theorem QueryErrorKind.doubtsColumns_iff (kind : QueryErrorKind) :
    kind.doubtsColumns = true ↔ kind ∈ [.canceled, .programming, .extensionNotCreated] := by
  rcases kind with _ | _ | _ | _ | _ | _ <;> decide

namespace Exchange

/-- The answer to the query for the columns, if the exchange is one and has succeeded. -/
def discovered? (view : String) (exchange : Exchange) : Option QueryResult :=
  match exchange.answer with
  | .error _ => none
  | .ok result => if exchange.sql = Catalog.discoveryQuery view then some result else none

/-- The answer is an error that may come from wrong ideas about the columns of the view. -/
def Doubts (exchange : Exchange) : Prop :=
  ∃ e, exchange.answer = .error e ∧ e.kind ∈ [.canceled, .programming, .extensionNotCreated]

variable {view : String} {exchange : Exchange} (known : ColumnCache)

theorem learn_of_discovered {result : QueryResult} (h : exchange.discovered? view = some result) :
    known.learn view exchange = .fill result.columns := by
  rw [discovered?] at h
  rw [ColumnCache.learn]
  rcases hanswer : exchange.answer with e | other
  · rw [hanswer] at h
    cases h
  · rw [hanswer] at h
    simp only at h ⊢
    split at h
    · obtain rfl := Option.some.inj h
      rw [if_pos ‹_›]
    · cases h

theorem learn_of_doubts (h : exchange.Doubts) : known.learn view exchange = .empty := by
  obtain ⟨e, he, hkind⟩ := h
  rw [ColumnCache.learn, he]
  exact if_pos (e.kind.doubtsColumns_iff.mpr hkind)

theorem learn_of_neither (hdiscovered : exchange.discovered? view = none)
    (hdoubts : ¬ exchange.Doubts) : known.learn view exchange = known := by
  rw [discovered?] at hdiscovered
  rw [ColumnCache.learn]
  rcases hanswer : exchange.answer with e | result
  · exact if_neg fun hkind => hdoubts ⟨e, hanswer, e.kind.doubtsColumns_iff.mp hkind⟩
  · rw [hanswer] at hdiscovered
    simp only at hdiscovered ⊢
    split at hdiscovered
    · cases hdiscovered
    · rw [if_neg ‹_›]

/-- Only the query for the columns finds them out. -/
theorem discovered?_of_ne (hsql : exchange.sql ≠ Catalog.discoveryQuery view) :
    exchange.discovered? view = none := by
  rw [discovered?]
  rcases exchange.answer with e | result
  · rfl
  · exact if_neg hsql

end Exchange

/-- The last answer to a query for the columns. -/
def lastDiscovery? (view : String) (history : List Exchange) : Option QueryResult :=
  (history.filterMap (Exchange.discovered? view)).getLast?

/-- The exchanges since the last answer to a query for the columns. -/
def sinceDiscovery (view : String) (history : List Exchange) : List Exchange :=
  history.rtakeWhile fun exchange => (exchange.discovered? view).isNone

theorem lastDiscovery?_concat (view : String) (history : List Exchange) (exchange : Exchange) :
    lastDiscovery? view (history ++ [exchange]) =
      (exchange.discovered? view).or (lastDiscovery? view history) := by
  rw [lastDiscovery?, List.filterMap_append, List.getLast?_append]
  rcases hdiscovered : exchange.discovered? view with _ | result
  · rw [List.filterMap_cons_none hdiscovered]
    rfl
  · rw [List.filterMap_cons_some hdiscovered]
    rfl

theorem sinceDiscovery_concat (view : String) (history : List Exchange) (exchange : Exchange) :
    sinceDiscovery view (history ++ [exchange]) =
      if (exchange.discovered? view).isNone then sinceDiscovery view history ++ [exchange]
      else [] := by
  rw [sinceDiscovery, List.rtakeWhile_concat]
  rfl

/-! ### What is known -/

/-- What is known of the columns behind some exchanges, if nothing was known before them. -/
inductive Knows (view : String) (history : List Exchange) : ColumnCache → Prop
  /-- The columns have never been found out. -/
  | nothing (h : lastDiscovery? view history = none) : Knows view history .empty
  /-- An error has cast doubt on them. -/
  | doubted (h : ∃ exchange ∈ sinceDiscovery view history, exchange.Doubts) :
    Knows view history .empty
  /-- They have been found out, and no error has cast doubt on them. -/
  | found {result : QueryResult} (h : lastDiscovery? view history = some result)
    (hdoubts : ∀ exchange ∈ sinceDiscovery view history, ¬ exchange.Doubts) :
    Knows view history (.fill result.columns)

theorem knows_foldl_learn (view : String) (history : List Exchange) :
    Knows view history (history.foldl (ColumnCache.learn view) .empty) := by
  induction history using List.reverseRecOn with
  | nil => exact .nothing rfl
  | append_singleton history exchange ih =>
    have hlast := lastDiscovery?_concat view history exchange
    have hsince := sinceDiscovery_concat view history exchange
    rw [List.foldl_append, List.foldl_cons, List.foldl_nil]
    rcases hdiscovered : exchange.discovered? view with _ | result
    · rw [hdiscovered, Option.none_or] at hlast
      rw [hdiscovered, Option.isNone_none, if_pos rfl] at hsince
      by_cases hdoubts : exchange.Doubts
      · rw [exchange.learn_of_doubts _ hdoubts]
        refine .doubted ⟨exchange, ?_, hdoubts⟩
        rw [hsince]
        exact List.mem_concat_self
      -- nothing is learned, and it is as it was before
      rw [Exchange.learn_of_neither _ hdiscovered hdoubts]
      generalize history.foldl (ColumnCache.learn view) .empty = known at ih ⊢
      rcases ih with h | ⟨other, hother, h⟩ | ⟨h, hnone⟩
      · exact .nothing (hlast.trans h)
      · refine .doubted ⟨other, ?_, h⟩
        rw [hsince]
        exact List.mem_append_left _ hother
      · refine .found (hlast.trans h) fun other hother => ?_
        rw [hsince, List.mem_append, List.mem_singleton] at hother
        rcases hother with hother | rfl
        · exact hnone other hother
        · exact hdoubts
    · rw [hdiscovered] at hlast
      rw [hdiscovered, Option.isNone_some, if_neg Bool.false_ne_true] at hsince
      rw [Exchange.learn_of_discovered _ hdiscovered]
      refine .found hlast fun other hother => ?_
      rw [hsince] at hother
      cases hother

/-- Nothing is known if the columns have never been found out, or if an error has cast doubt on
them. -/
theorem foldl_learn_eq_empty_iff (view : String) (history : List Exchange) :
    history.foldl (ColumnCache.learn view) .empty = .empty ↔
      lastDiscovery? view history = none ∨
        ∃ exchange ∈ sinceDiscovery view history, exchange.Doubts := by
  have hknows := knows_foldl_learn view history
  generalize history.foldl (ColumnCache.learn view) .empty = known at hknows ⊢
  rcases hknows with h | h | ⟨h, hnone⟩
  · exact iff_of_true rfl (.inl h)
  · exact iff_of_true rfl (.inr h)
  · refine iff_of_false nofun ?_
    rintro (hnothing | ⟨exchange, hmem, hdoubts⟩)
    · cases h.symm.trans hnothing
    · exact hnone exchange hmem hdoubts

/-- Columns that are known are those of the last discovery. -/
theorem exists_lastDiscovery? {view : String} {history : List Exchange} {columns : List String}
    (h : history.foldl (ColumnCache.learn view) .empty = ⟨some columns⟩) :
    ∃ result, lastDiscovery? view history = some result ∧
      columns = Text.sortedSet result.columns := by
  have hknows := knows_foldl_learn view history
  generalize history.foldl (ColumnCache.learn view) .empty = known at hknows h
  rcases hknows with _ | _ | ⟨hlast, -⟩
  · cases h
  · cases h
  · exact ⟨_, hlast, (Option.some.inj (ColumnCache.mk.inj h)).symm⟩

/-- Known columns that are not found out anew are kept as long as no error casts doubt on them. -/
theorem foldl_learn_of_not_doubts {view : String} {exchanges : List Exchange}
    (hundiscovered : ∀ exchange ∈ exchanges, exchange.discovered? view = none)
    (hnone : ∀ exchange ∈ exchanges, ¬ exchange.Doubts) (known : ColumnCache) :
    exchanges.foldl (ColumnCache.learn view) known = known := by
  induction exchanges with
  | nil => rfl
  | cons exchange exchanges ih =>
    rw [List.forall_mem_cons] at hundiscovered hnone
    rw [List.foldl_cons, Exchange.learn_of_neither known hundiscovered.1 hnone.1]
    exact ih hundiscovered.2 hnone.2

/-- They are forgotten with the first error that does. -/
theorem foldl_learn_of_doubts {view : String} {exchanges : List Exchange}
    (hundiscovered : ∀ exchange ∈ exchanges, exchange.discovered? view = none)
    (hdoubts : ∃ exchange ∈ exchanges, exchange.Doubts) (known : ColumnCache) :
    exchanges.foldl (ColumnCache.learn view) known = .empty := by
  induction exchanges generalizing known with
  | nil =>
    obtain ⟨exchange, hexchange, -⟩ := hdoubts
    cases hexchange
  | cons exchange exchanges ih =>
    rw [List.forall_mem_cons] at hundiscovered
    rw [List.exists_mem_cons_iff] at hdoubts
    rw [List.foldl_cons]
    by_cases hlater : ∃ exchange ∈ exchanges, exchange.Doubts
    · exact ih hundiscovered.2 hlater _
    · -- nothing is found out behind the last error
      rw [Exchange.learn_of_doubts known (hdoubts.resolve_right hlater)]
      refine foldl_learn_of_not_doubts hundiscovered.2 (fun other hother h => ?_) _
      exact hlater ⟨other, hother, h⟩

/-! ### What is asked -/

/-- A part that is behind the first one stands in the second one. -/
theorem exists_of_append_eq {α : Type} {first second earlier later : List α} {x : α}
    (h : first ++ second = earlier ++ x :: later) (hx : x ∉ first) :
    ∃ between, earlier = first ++ between ∧ second = between ++ x :: later := by
  rcases List.append_eq_append_iff.mp h with ⟨between, hearlier, hsecond⟩ | ⟨rest, hfirst, hrest⟩
  · exact ⟨between, hearlier, hsecond⟩
  rcases rest with _ | ⟨y, rest⟩
  · exact ⟨[], by simpa using hfirst.symm, hrest.symm⟩
  · obtain ⟨rfl, -⟩ := List.cons.inj hrest
    refine absurd ?_ hx
    rw [hfirst]
    exact List.mem_append_right _ List.mem_cons_self

/-- The texts of the queries for other things than the statistics. -/
def otherQueries (view : String) : List String :=
  [Catalog.discoveryQuery view, Catalog.countQuery, Catalog.countQueryWithTexts,
    Catalog.capacityQuery]

section

variable {settings : Settings} {known : ColumnCache} {rows : List ViewRow}
  {exchanges earlier later : List Exchange} {exchange : Exchange}

theorem FindsOut.sql_eq (h : FindsOut settings known exchanges) (hexchange : exchange ∈ exchanges) :
    exchange.sql = Catalog.discoveryQuery settings.view := by
  rcases h with _ | answer
  · cases hexchange
  · rw [List.mem_singleton.mp hexchange]

theorem Measures.sql_mem (h : Measures rows exchanges) (hexchange : exchange ∈ exchanges) :
    exchange.sql ∈ [Catalog.countQuery, Catalog.countQueryWithTexts, Catalog.capacityQuery] := by
  rcases h with _ | ⟨_, version, count, capacity⟩
  · cases hexchange
  · rcases List.mem_pair.mp hexchange with rfl | rfl
    · exact Inquiry.countQueryFor_mem version
    · simp

/-- If something is selected, it is the statistics for the columns that are known, of which none is
missing. -/
theorem Selects.eq_of_mem (h : Selects settings known rows exchanges)
    (hexchange : exchange ∈ exchanges) :
    exchanges = [exchange] ∧ ∃ columns, known = ⟨some columns⟩ ∧
      Catalog.missingColumns columns = [] ∧
      exchange = statisticsExchange settings columns exchange.answer := by
  rcases h with _ | _ | ⟨hnone, e⟩ | ⟨hnone, result⟩
  · cases hexchange
  · cases hexchange
  · obtain rfl := List.mem_singleton.mp hexchange
    exact ⟨rfl, _, rfl, hnone, rfl⟩
  · obtain rfl := List.mem_singleton.mp hexchange
    exact ⟨rfl, _, rfl, hnone, rfl⟩

/-- The statistics and how full the view is are asked for with other texts than the columns. -/
theorem Selects.sql_ne_discoveryQuery {selected measured : List Exchange}
    (hselected : Selects settings known rows selected) (hmeasured : Measures rows measured)
    (hexchange : exchange ∈ selected ++ measured) :
    exchange.sql ≠ Catalog.discoveryQuery settings.view := by
  rcases List.mem_append.mp hexchange with hexchange | hexchange
  · obtain ⟨-, columns, -, hnone, hstatistics⟩ := hselected.eq_of_mem hexchange
    rw [hstatistics]
    exact Inquiry.statisticsRequest_ne settings hnone
  · exact Catalog.ne_discoveryQuery (hmeasured.sql_mem hexchange) _

/-- A cycle asks for the columns exactly if it does not know them. -/
theorem Converses.exists_discovery_iff (h : Converses settings known exchanges) :
    (∃ exchange ∈ exchanges, exchange.sql = Catalog.discoveryQuery settings.view) ↔
      known = .empty := by
  obtain @⟨rows, found, selected, measured, hfound, hselected, hmeasured⟩ := h
  rcases hfound with columns | answer
  · refine iff_of_false ?_ nofun
    rintro ⟨exchange, hexchange, hsql⟩
    exact hselected.sql_ne_discoveryQuery hmeasured hexchange hsql
  · exact iff_of_true ⟨_, List.mem_cons_self, rfl⟩ rfl

/-- Known columns are not found out anew. -/
theorem Converses.discovered?_eq_none {columns : List String}
    (h : Converses settings ⟨some columns⟩ exchanges) (hexchange : exchange ∈ exchanges) :
    exchange.discovered? settings.view = none := by
  refine Exchange.discovered?_of_ne fun hsql => ?_
  cases h.exists_discovery_iff.mp ⟨exchange, hexchange, hsql⟩

/-- The columns are asked for first. -/
theorem Converses.eq_discovery (h : Converses settings known (earlier ++ exchange :: later))
    (hsql : exchange.sql = Catalog.discoveryQuery settings.view) :
    earlier = [] ∧ exchange = ⟨Catalog.discoveryQuery settings.view, [], exchange.answer⟩ := by
  generalize hall : earlier ++ exchange :: later = exchanges at h
  obtain @⟨rows, found, selected, measured, hfound, hselected, hmeasured⟩ := h
  have hnotBehind : exchange ∉ selected ++ measured := fun hexchange =>
    hselected.sql_ne_discoveryQuery hmeasured hexchange hsql
  rcases hfound with columns | answer
  · refine absurd ?_ hnotBehind
    rw [← List.nil_append (selected ++ measured), ← hall]
    exact List.mem_append_right _ List.mem_cons_self
  rcases earlier with _ | ⟨first, earlier⟩
  · obtain ⟨rfl, -⟩ := List.cons.inj hall
    exact ⟨rfl, rfl⟩
  · refine absurd ?_ hnotBehind
    rw [List.singleton_append, List.cons_append] at hall
    rw [← (List.cons.inj hall).2]
    exact List.mem_append_right _ List.mem_cons_self

/-- Where a cycle asks for the statistics, it knows the columns, and none is missing. -/
theorem Converses.exists_columns (h : Converses settings known (earlier ++ exchange :: later))
    (hsql : exchange.sql ∉ otherQueries settings.view) :
    ∃ columns, earlier.foldl (ColumnCache.learn settings.view) known = ⟨some columns⟩ ∧
      Catalog.missingColumns columns = [] ∧
      exchange = statisticsExchange settings columns exchange.answer := by
  generalize hall : earlier ++ exchange :: later = exchanges at h
  obtain @⟨rows, found, selected, measured, hfound, hselected, hmeasured⟩ := h
  have hnotFound : exchange ∉ found := by
    intro hexchange
    rw [hfound.sql_eq hexchange] at hsql
    exact hsql List.mem_cons_self
  have hnotMeasured : exchange ∉ measured := fun hexchange =>
    hsql (List.mem_cons_of_mem _ (hmeasured.sql_mem hexchange))
  obtain ⟨between, rfl, hbehind⟩ := exists_of_append_eq hall.symm hnotFound
  have hexchange : exchange ∈ selected := by
    have hmem : exchange ∈ selected ++ measured := by
      rw [hbehind]
      exact List.mem_append_right _ List.mem_cons_self
    exact (List.mem_append.mp hmem).resolve_right hnotMeasured
  obtain ⟨rfl, columns, hcolumns, hnone, hstatistics⟩ := hselected.eq_of_mem hexchange
  rcases between with _ | ⟨other, between⟩
  · rw [List.append_nil]
    exact ⟨columns, hcolumns, hnone, hstatistics⟩
  · -- the statistics are asked for only once
    rw [List.singleton_append, List.cons_append] at hbehind
    obtain ⟨-, hrest⟩ := List.cons.inj hbehind
    refine absurd ?_ hnotMeasured
    rw [hrest]
    exact List.mem_append_right _ List.mem_cons_self

end

theorem statisticsRequest_fst (settings : Settings) (columns : List String) :
    (Inquiry.statisticsRequest settings columns).1 =
      Catalog.statisticsQuery (", ".intercalate (Catalog.selectedColumns columns)) settings.view
        (if settings.onlyDatabase then Catalog.databaseFilter else "") settings.rowLimit := by
  rw [Inquiry.statisticsRequest]
  split <;> rfl

namespace Collector

variable {σ τ : Type} [Source σ] [Interruptible σ] [EventSink τ]

/-- In any run of a collector that knows nothing at the start, a cycle that is running asks for the
columns of the view exactly if they have never been found out before, or if since they were found
out last a query has failed because it was cancelled, because the server did not accept it, or
because there was no view. What a cycle asks for apart from the columns, the number of statements
and the capacity are the statistics; of these texts only that for the columns is a query over the
view. The statistics are asked for with a list of columns in order and each once, which are the
wanted ones of those that were found out last, and among them the calls, the text and the rows. -/
theorem discovers_iff (c : Collector) (hc : c.columns = .empty) (before : List (Cycle σ τ))
    (cycle : Cycle σ τ) :
    (Interruptible.isRunning cycle.source = true →
      ((∃ exchange ∈ (c.after before).transcript cycle,
          exchange.sql = Catalog.discoveryQuery c.settings.view) ↔
        lastDiscovery? c.settings.view (c.history before) = none ∨
          ∃ exchange ∈ sinceDiscovery c.settings.view (c.history before),
            ∃ e, exchange.answer = .error e ∧
              e.kind ∈ [.canceled, .programming, .extensionNotCreated])) ∧
    (∀ columns filters limit,
      Catalog.statisticsQuery columns c.settings.view filters limit ∈
          otherQueries c.settings.view →
        Catalog.statisticsQuery columns c.settings.view filters limit =
          Catalog.discoveryQuery c.settings.view) ∧
    ∀ earlier exchange later, (c.after before).transcript cycle = earlier ++ exchange :: later →
      exchange.sql ∉ otherQueries c.settings.view →
      ∃ result columns,
        lastDiscovery? c.settings.view (c.history before ++ earlier) = some result ∧
        exchange.sql = Catalog.statisticsQuery (", ".intercalate columns) c.settings.view
          (if c.settings.onlyDatabase then Catalog.databaseFilter else "") c.settings.rowLimit ∧
        columns.Pairwise (· < ·) ∧
        (∀ column, column ∈ columns ↔
          column ∈ Catalog.desiredColumns ∧ column ∈ result.columns) ∧
        ∀ column ∈ ["calls", "query", "rows"], column ∈ columns := by
  have hknown := c.columns_after before
  rw [hc] at hknown
  have hsettings := c.settings_after before
  refine ⟨fun hrunning => ?_, fun columns filters limit hother => ?_,
    fun earlier exchange later htranscript hsql => ?_⟩
  · obtain ⟨hconverses, -⟩ := transcript_of_running hrunning
    rw [hsettings] at hconverses
    rw [hconverses.exists_discovery_iff, hknown, foldl_learn_eq_empty_iff]
    rfl
  · exact (List.mem_cons.mp hother).resolve_right (Catalog.statisticsQuery_not_mem _ _ _ _)
  · have hrunning : Interruptible.isRunning cycle.source = true := by
      refine Bool.of_not_eq_false fun hstopped => ?_
      have hnothing : (c.after before).transcript cycle = [] := (transcript_of_stopped hstopped).1
      simp [hnothing] at htranscript
    obtain ⟨hconverses, -⟩ := transcript_of_running hrunning
    rw [hsettings, htranscript, hknown] at hconverses
    obtain ⟨columns, hcolumns, hnone, hstatistics⟩ := hconverses.exists_columns hsql
    rw [← List.foldl_append] at hcolumns
    obtain ⟨result, hlast, rfl⟩ := exists_lastDiscovery? hcolumns
    refine ⟨result, Catalog.selectedColumns (Text.sortedSet result.columns), hlast, ?_, ?_, ?_, ?_⟩
    · rw [hstatistics]
      exact statisticsRequest_fst c.settings _
    · exact Catalog.pairwise_selectedColumns (Text.pairwise_sortedSet result.columns)
    · intro column
      rw [Catalog.mem_selectedColumns, Text.mem_sortedSet, and_comm]
    · exact fun column hcolumn => Catalog.mem_selectedColumns_of_required hnone hcolumn

/-- A source that gives the same reply to every query. -/
structure Replying where
  reply : Except QueryError QueryResult

instance : Source Replying where
  query _ _ source := (source.reply, source)
  serverVersion source := (none, source)

instance : Interruptible Replying := ⟨fun _ => true⟩

/-- A cycle in which every query has the same answer, without rows. -/
def answeredCycle : Cycle Replying Drain :=
  ⟨0, 0.0, ⟨.ok ⟨["userid", "rows", "query", "calls"], []⟩⟩, ⟨⟩⟩

/-- A cycle in which the server accepts no query. -/
def rejectedCycle : Cycle Replying Drain :=
  ⟨0, 0.0, ⟨.error ⟨.programming, "column does not exist"⟩⟩, ⟨⟩⟩

/-- Known columns are not asked for again, until the server does not accept a query. -/
theorem discovers_after_rejectedCycle :
    let view := plainCollector.settings.view
    (¬ ∃ exchange ∈ (plainCollector.after [answeredCycle]).transcript answeredCycle,
      exchange.sql = Catalog.discoveryQuery view) ∧
    (∃ exchange ∈ (plainCollector.after [answeredCycle, rejectedCycle]).transcript answeredCycle,
      exchange.sql = Catalog.discoveryQuery view) ∧
    ∃ exchange ∈ (plainCollector.after [answeredCycle]).transcript answeredCycle, ∃ columns,
      exchange.sql = Catalog.statisticsQuery (", ".intercalate columns) view "" 10000 ∧
        ∀ column ∈ ["calls", "query", "rows"], column ∈ columns := by
  intro view
  obtain ⟨hknown, -, hstatistics⟩ :=
    discovers_iff plainCollector rfl [answeredCycle] answeredCycle
  obtain ⟨hrejected, -, -⟩ :=
    discovers_iff plainCollector rfl [answeredCycle, rejectedCycle] answeredCycle
  refine ⟨fun h => ?_, (hrejected rfl).mpr (.inr ?_), ?_⟩
  · have hlast : (lastDiscovery? view (plainCollector.history [answeredCycle])).isSome = true := by
      decide +kernel
    have hsince : (sinceDiscovery view (plainCollector.history [answeredCycle])).all
        (fun exchange => exchange.answer.isOk) = true := by
      decide +kernel
    rcases (hknown rfl).mp h with hnone | ⟨exchange, hmem, e, he, -⟩
    · rw [hnone] at hlast
      cases hlast
    · have hok := List.all_eq_true.mp hsince exchange hmem
      rw [he] at hok
      cases hok
  · have hsince : (sinceDiscovery view
        (plainCollector.history [answeredCycle, rejectedCycle])).any (fun exchange =>
          match exchange.answer with
          | .error e => e.kind = .programming
          | .ok _ => false) = true := by
      decide +kernel
    obtain ⟨exchange, hmem, hrejects⟩ := List.any_eq_true.mp hsince
    refine ⟨exchange, hmem, ?_⟩
    rcases hanswer : exchange.answer with e | result
    · rw [hanswer] at hrejects
      exact ⟨e, rfl, by simp [of_decide_eq_true hrejects]⟩
    · rw [hanswer] at hrejects
      cases hrejects
  · have htranscript : (plainCollector.after [answeredCycle]).transcript answeredCycle =
        [statisticsExchange .default ["calls", "query", "rows", "userid"]
          answeredCycle.source.reply] := rfl
    have hother : (statisticsExchange .default ["calls", "query", "rows", "userid"]
        answeredCycle.source.reply).sql ∉ otherQueries view := by
      decide +kernel
    obtain ⟨result, columns, -, hsql, -, -, hrequired⟩ :=
      hstatistics [] _ [] htranscript hother
    rw [htranscript]
    exact ⟨_, List.mem_cons_self, columns, hsql, hrequired⟩

end Collector

end QueryTelemetry
