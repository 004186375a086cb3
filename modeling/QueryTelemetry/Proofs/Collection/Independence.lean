import Mathlib.Data.List.Sort
import QueryTelemetry.Proofs.Collection.Requests

/-!
# Runs that ask the same

What a collector asks depends on little: of the settings on what is put into queries, and of the
answers on the wanted columns, on whether there are rows, and on doubts about the columns. Two runs
that agree in this much send the same queries (`history_alike`). They are compared step by step:
two computations `AsksAlike` if they ask the same from states in which the same has been asked and
the same is known of the columns.
-/

namespace QueryTelemetry

namespace Catalog

/-- Whether a column that is needed is there can be read off the wanted columns. -/
theorem missingColumns_selectedColumns (available : List String) :
    missingColumns (selectedColumns available) = missingColumns available := by
  have hdesired : ∀ column ∈ requiredColumns, column ∈ desiredColumns := by decide +kernel
  rw [missingColumns, missingColumns]
  refine List.filter_congr fun column hcolumn => ?_
  have hiff : column ∈ selectedColumns available ↔ column ∈ available :=
    mem_selectedColumns.trans (and_iff_left (hdesired column hcolumn))
  simp [List.contains_eq_mem, hiff]

/-- Names with the same wanted ones among them lead to the same selection. -/
theorem selectedColumns_sortedSet_eq {names names' : List String}
    (h : ∀ column ∈ desiredColumns, (column ∈ names ↔ column ∈ names')) :
    selectedColumns (Text.sortedSet names) = selectedColumns (Text.sortedSet names') := by
  have horder := pairwise_selectedColumns (Text.pairwise_sortedSet names)
  have horder' := pairwise_selectedColumns (Text.pairwise_sortedSet names')
  have hmem (column : String) : column ∈ selectedColumns (Text.sortedSet names) ↔
      column ∈ selectedColumns (Text.sortedSet names') := by
    rw [mem_selectedColumns, mem_selectedColumns, Text.mem_sortedSet, Text.mem_sortedSet]
    exact and_congr_left fun hdesired => h column hdesired
  exact horder.eq_of_mem_iff horder' hmem

end Catalog

/-! ### Answers that lead to the same queries -/

/-- Answers with the same influence on what is asked: errors that cast doubt on the columns alike,
or results with the same wanted columns, both with rows or both without. -/
def AlikeAnswers : Except QueryError QueryResult → Except QueryError QueryResult → Prop
  | .error e, .error e' => e.kind.doubtsColumns = e'.kind.doubtsColumns
  | .ok result, .ok result' =>
    (∀ column ∈ Catalog.desiredColumns, (column ∈ result.columns ↔ column ∈ result'.columns)) ∧
      result.rows.isEmpty = result'.rows.isEmpty
  | _, _ => False

/-- Sources in corresponding states answer queries of two collectors alike, which may name different
databases, and stay in corresponding states. -/
structure AnswersAlike {σ σ' : Type} [Source σ] [Source σ'] [Interruptible σ] [Interruptible σ']
    (database database' : String) (R : σ → σ' → Prop) : Prop where
  query : ∀ {source source'}, R source source' → ∀ sql, ∀ parameters parameters',
    (parameters, parameters') ∈ [([], []), ([database], [database'])] →
      AlikeAnswers (Source.query sql parameters source).1
        (Source.query sql parameters' source').1 ∧
      R (Source.query sql parameters source).2 (Source.query sql parameters' source').2
  serverVersion : ∀ {source source'}, R source source' →
    (Source.serverVersion source).1 = (Source.serverVersion source').1 ∧
      R (Source.serverVersion source).2 (Source.serverVersion source').2
  isRunning : ∀ {source source'}, R source source' →
    Interruptible.isRunning source = Interruptible.isRunning source'

/-- Settings with the same parts in queries. -/
structure Settings.AskAlike (s s' : Settings) : Prop where
  view : s.view = s'.view
  onlyDatabase : s.onlyDatabase = s'.onlyDatabase
  rowLimit : s.rowLimit = s'.rowLimit

/-- Columns that are not known on either side, or known with the same wanted ones. -/
def ColumnCache.Alike : ColumnCache → ColumnCache → Prop
  | ⟨none⟩, ⟨none⟩ => True
  | ⟨some columns⟩, ⟨some columns'⟩ =>
    Catalog.selectedColumns columns = Catalog.selectedColumns columns'
  | _, _ => False

namespace Inquiry

variable {σ σ' α α' β β' : Type}

/-- The same has been asked, and the same will be asked from there. -/
structure Alike (R : σ → σ' → Prop) (i : Inquiry (Transcript σ)) (i' : Inquiry (Transcript σ')) :
    Prop where
  source : R i.source.source i'.source.source
  asked : i.source.exchanges.map Exchange.sql = i'.source.exchanges.map Exchange.sql
  columns : i.columns.Alike i'.columns

/-- Computations that ask the same, with related results. -/
def AsksAlike (R : σ → σ' → Prop) (related : α → α' → Prop)
    (m : StateM (Inquiry (Transcript σ)) α) (m' : StateM (Inquiry (Transcript σ')) α') : Prop :=
  ∀ i i', Alike R i i' →
    related (m.run i).1 (m'.run i').1 ∧ Alike R (m.run i).2 (m'.run i').2

variable {R : σ → σ' → Prop} {related : α → α' → Prop} {related' : β → β' → Prop}

/-! ### Composition -/

theorem asksAlike_pure {a : α} {a' : α'} (h : related a a') :
    AsksAlike R related (pure a) (pure a') := fun _ _ hi => ⟨h, hi⟩

theorem AsksAlike.bind {first : StateM (Inquiry (Transcript σ)) α}
    {first' : StateM (Inquiry (Transcript σ')) α'} {next : α → StateM (Inquiry (Transcript σ)) β}
    {next' : α' → StateM (Inquiry (Transcript σ')) β'} (hfirst : AsksAlike R related first first')
    (hnext : ∀ a a', related a a' → AsksAlike R related' (next a) (next' a')) :
    AsksAlike R related' (first >>= next) (first' >>= next') := by
  intro i i' hi
  obtain ⟨hrelated, hbehind⟩ := hfirst i i' hi
  exact hnext _ _ hrelated _ _ hbehind

theorem AsksAlike.ite {m n : StateM (Inquiry (Transcript σ)) α}
    {m' n' : StateM (Inquiry (Transcript σ')) α'} {b b' : Bool} (hb : b = b')
    (hm : AsksAlike R related m m') (hn : AsksAlike R related n n') :
    AsksAlike R related (if b then m else n) (if b' then m' else n') := by
  subst hb
  rcases b with _ | _
  · exact hn
  · exact hm

/-- Something is written down or counted, and nothing is asked. -/
def IsQuiet {σ : Type} (m : StateM (Inquiry σ) α) : Prop :=
  ∀ i, (m.run i).2.source = i.source ∧ (m.run i).2.columns = i.columns

/-- What is written down or counted has no influence. -/
theorem asksAlike_of_isQuiet {m : StateM (Inquiry (Transcript σ)) α}
    {m' : StateM (Inquiry (Transcript σ')) α'} (hm : IsQuiet m) (hm' : IsQuiet m') :
    AsksAlike R (fun _ _ => True) m m' := by
  intro i i' hi
  obtain ⟨hsource, hcolumns⟩ := hm i
  obtain ⟨hsource', hcolumns'⟩ := hm' i'
  refine ⟨trivial, ?_, ?_, ?_⟩
  · rw [hsource, hsource']
    exact hi.source
  · rw [hsource, hsource']
    exact hi.asked
  · rw [hcolumns, hcolumns']
    exact hi.columns

theorem isQuiet_note (entry : LogEntry) : IsQuiet (note entry : StateM (Inquiry σ) Unit) :=
  fun _ => ⟨rfl, rfl⟩

theorem isQuiet_report (d : Diagnostic) : IsQuiet (report d : StateM (Inquiry σ) Unit) :=
  fun _ => ⟨rfl, rfl⟩

/-- A number is asked for, and nothing else happens to the source and the columns. -/
theorem exists_reportNumber_eq [Source σ] (settings : Settings) (metric sql column : String) :
    ∃ next : Except QueryError QueryResult → StateM (Inquiry σ) Unit,
      (∀ answer, IsQuiet (next answer)) ∧
        reportNumber settings metric sql column = ask sql [] >>= next := by
  refine ⟨_, fun answer => ?_, rfl⟩
  rcases answer with e | result
  · exact isQuiet_note _
  · simp only
    rcases firstNumber? column result with _ | value
    · exact isQuiet_note _
    · exact isQuiet_report _

/-! ### Queries -/

variable [Source σ] [Source σ'] [Interruptible σ] [Interruptible σ'] {settings settings' : Settings}
  (hR : AnswersAlike settings.database settings'.database R)
include hR

theorem asksAlike_ask (sql : String) (parameters parameters' : List String)
    (h : (parameters, parameters') ∈ [([], []), ([settings.database], [settings'.database])]) :
    AsksAlike R AlikeAnswers (ask sql parameters) (ask sql parameters') := by
  intro i i' hi
  obtain ⟨hanswer, hsource⟩ := hR.query hi.source sql parameters parameters' h
  refine ⟨hanswer, hsource, ?_, ?_⟩
  · rw [ask_run, ask_run, Transcript.exchanges_query, Transcript.exchanges_query, List.map_append,
      List.map_append, hi.asked]
    rfl
  · have hcolumns := hi.columns
    rw [ask_run, ask_run]
    change AlikeAnswers (Source.query sql parameters i.source).1
      (Source.query sql parameters' i'.source).1 at hanswer
    generalize (Source.query sql parameters i.source).1 = answer at hanswer ⊢
    generalize (Source.query sql parameters' i'.source).1 = answer' at hanswer ⊢
    rcases answer with e | result <;> rcases answer' with e' | result'
    · have hdoubts : e.kind.doubtsColumns = e'.kind.doubtsColumns := hanswer
      simp only [hdoubts]
      split
      · trivial
      · exact hcolumns
    · exact hanswer.elim
    · exact hanswer.elim
    · exact hcolumns

theorem asksAlike_serverVersion :
    AsksAlike R (· = ·) (serverVersion : StateM (Inquiry (Transcript σ)) _)
      (serverVersion : StateM (Inquiry (Transcript σ')) _) := by
  intro i i' hi
  obtain ⟨hversion, hsource⟩ := hR.serverVersion hi.source
  exact ⟨hversion, hsource, hi.asked, hi.columns⟩

theorem asksAlike_isRunning :
    AsksAlike R (· = ·) (isRunning : StateM (Inquiry (Transcript σ)) _)
      (isRunning : StateM (Inquiry (Transcript σ')) _) :=
  fun _ _ hi => ⟨hR.isRunning hi.source, hi⟩

/-- Columns that are available on both sides, with the same wanted ones, or on neither. -/
def AlikeAvailable : Except QueryError (List String) → Except QueryError (List String) → Prop
  | .error _, .error _ => True
  | .ok columns, .ok columns' => Catalog.selectedColumns columns = Catalog.selectedColumns columns'
  | _, _ => False

theorem asksAlike_availableColumns (hsettings : settings.AskAlike settings') :
    AsksAlike R AlikeAvailable (availableColumns settings) (availableColumns settings') := by
  intro i i' hi
  have hcolumns := hi.columns
  rcases hknown : i.columns with ⟨_ | columns⟩ <;>
    rcases hknown' : i'.columns with ⟨_ | columns'⟩ <;>
    rw [hknown, hknown'] at hcolumns
  · have hask :=
      asksAlike_ask hR (Catalog.discoveryQuery settings.view) [] [] List.mem_cons_self i i' hi
    rw [availableColumns_of_unknown hknown, availableColumns_of_unknown hknown', ← hsettings.view]
    generalize (ask (Catalog.discoveryQuery settings.view) []).run i = answer at hask ⊢
    generalize (ask (Catalog.discoveryQuery settings.view) []).run i' = answer' at hask ⊢
    obtain ⟨e | result, j⟩ := answer <;> obtain ⟨e' | result', j'⟩ := answer'
    · exact ⟨trivial, hask.2⟩
    · exact hask.1.elim
    · exact hask.1.elim
    · have hselected := Catalog.selectedColumns_sortedSet_eq hask.1.1
      exact ⟨hselected, hask.2.source, hask.2.asked, hselected⟩
  · exact hcolumns.elim
  · exact hcolumns.elim
  · rw [availableColumns_of_known hknown, availableColumns_of_known hknown']
    exact ⟨hcolumns, hi⟩

/-- Both sides have rows, or neither. -/
def AlikeRows (rows rows' : List ViewRow) : Prop := rows.isEmpty = rows'.isEmpty

omit [Source σ] [Source σ'] [Interruptible σ] [Interruptible σ'] hR in
/-- Behind a query that has failed there are no rows. -/
theorem asksAlike_queryFailed (e e' : QueryError) :
    AsksAlike R AlikeRows (queryFailed settings e >>= fun _ => pure [])
      (queryFailed settings' e' >>= fun _ => pure []) :=
  (asksAlike_of_isQuiet (fun _ => ⟨rfl, rfl⟩) fun _ => ⟨rfl, rfl⟩).bind fun _ _ _ =>
    asksAlike_pure rfl

theorem asksAlike_fetch (hsettings : settings.AskAlike settings') :
    AsksAlike R AlikeRows (fetch settings) (fetch settings') := by
  refine (asksAlike_availableColumns hR hsettings).bind fun answer answer' hanswer => ?_
  rcases answer with e | available <;> rcases answer' with e' | available'
  · exact asksAlike_queryFailed e e'
  · exact hanswer.elim
  · exact hanswer.elim
  have hselected : Catalog.selectedColumns available = Catalog.selectedColumns available' := hanswer
  have hmissing : Catalog.missingColumns available = Catalog.missingColumns available' := by
    rw [← Catalog.missingColumns_selectedColumns, hselected,
      Catalog.missingColumns_selectedColumns]
  refine .ite (by rw [hmissing]) ?_ ?_
  · have hsql : (statisticsRequest settings available).1 =
        (statisticsRequest settings' available').1 := by
      rw [statisticsRequest_fst, statisticsRequest_fst, hselected, hsettings.view,
        hsettings.onlyDatabase, hsettings.rowLimit]
    have hparameters : ((statisticsRequest settings available).2,
        (statisticsRequest settings' available').2) ∈
          [([], []), ([settings.database], [settings'.database])] := by
      rw [statisticsRequest_snd, statisticsRequest_snd, hsettings.onlyDatabase]
      split <;> simp
    have hask : AsksAlike R AlikeAnswers
        (ask (statisticsRequest settings available).1 (statisticsRequest settings available).2)
        (ask (statisticsRequest settings' available').1
          (statisticsRequest settings' available').2) := by
      rw [hsql]
      exact asksAlike_ask hR _ _ _ hparameters
    refine hask.bind fun answer answer' hanswer => ?_
    rcases answer with e | result <;> rcases answer' with e' | result'
    · exact asksAlike_queryFailed e e'
    · exact hanswer.elim
    · exact hanswer.elim
    · exact asksAlike_pure hanswer.2
  · refine (asksAlike_of_isQuiet (isQuiet_note _) (isQuiet_note _)).bind fun _ _ _ => ?_
    refine (asksAlike_of_isQuiet (isQuiet_report _) (isQuiet_report _)).bind fun _ _ _ => ?_
    exact asksAlike_pure rfl

theorem asksAlike_reportNumber (metric sql column : String) :
    AsksAlike R (fun _ _ => True) (reportNumber settings metric sql column)
      (reportNumber settings' metric sql column) := by
  obtain ⟨next, hquiet, hnext⟩ :=
    @exists_reportNumber_eq (Transcript σ) _ settings metric sql column
  obtain ⟨next', hquiet', hnext'⟩ :=
    @exists_reportNumber_eq (Transcript σ') _ settings' metric sql column
  rw [hnext, hnext']
  exact (asksAlike_ask hR sql [] [] List.mem_cons_self).bind fun answer answer' _ =>
    asksAlike_of_isQuiet (hquiet answer) (hquiet' answer')

theorem asksAlike_reportOccupancy :
    AsksAlike R (fun _ _ => True) (reportOccupancy settings) (reportOccupancy settings') := by
  refine (asksAlike_serverVersion hR).bind fun version version' hversion => ?_
  obtain rfl := hversion
  exact (asksAlike_reportNumber hR _ _ _).bind fun _ _ _ => asksAlike_reportNumber hR _ _ _

theorem asksAlike_gather (hsettings : settings.AskAlike settings') :
    AsksAlike R (fun _ _ => True) (gather settings) (gather settings') := by
  refine (asksAlike_isRunning hR).bind fun running running' hrunning => ?_
  refine .ite (by rw [hrunning]) (asksAlike_pure trivial) ?_
  refine (asksAlike_fetch hR hsettings).bind fun rows rows' hrows => ?_
  refine .ite hrows (asksAlike_pure trivial) ?_
  refine (asksAlike_reportOccupancy hR).bind fun _ _ _ => ?_
  refine (asksAlike_isRunning hR).bind fun running running' hrunning => ?_
  exact .ite (by rw [hrunning]) (asksAlike_pure trivial) (asksAlike_pure trivial)

end Inquiry

/-! ### Runs -/

namespace Collector

variable {σ σ' τ τ' : Type} [Source σ] [Source σ'] [Interruptible σ] [Interruptible σ']
  [EventSink τ] [EventSink τ'] {R : σ → σ' → Prop} {c : Collector} {c' : Collector}

/-- Cycles from columns that are known alike ask the same, and know columns alike afterwards. -/
theorem transcript_alike {cycle : Cycle σ τ} {cycle' : Cycle σ' τ'}
    (hsettings : c.settings.AskAlike c'.settings) (hcolumns : c.columns.Alike c'.columns)
    (hR : AnswersAlike c.settings.database c'.settings.database R)
    (hsource : R cycle.source cycle'.source) :
    (c.transcript cycle).map Exchange.sql = (c'.transcript cycle').map Exchange.sql ∧
      (c.next cycle).columns.Alike (c'.next cycle').columns := by
  obtain ⟨-, hinquiry⟩ := Inquiry.asksAlike_gather hR hsettings
    ⟨Transcript.blank cycle.source, c.columns, [], []⟩
    ⟨Transcript.blank cycle'.source, c'.columns, [], []⟩ ⟨hsource, rfl, hcolumns⟩
  refine ⟨?_, ?_⟩
  · rw [transcript_eq_inquiry, transcript_eq_inquiry]
    exact hinquiry.asked
  · rw [columns_next_eq_transcript, columns_next_eq_transcript]
    exact hinquiry.columns

/-- Runs over sources that answer alike ask the same. -/
theorem history_alike {cycles : List (Cycle σ τ)} {cycles' : List (Cycle σ' τ')}
    (hsettings : c.settings.AskAlike c'.settings) (hcolumns : c.columns.Alike c'.columns)
    (hR : AnswersAlike c.settings.database c'.settings.database R)
    (hcycles : List.Forall₂ (fun cycle cycle' => R cycle.source cycle'.source) cycles cycles') :
    (c.history cycles).map Exchange.sql = (c'.history cycles').map Exchange.sql := by
  induction hcycles generalizing c c' with
  | nil => rfl
  | cons hsource hrest ih =>
    rename_i cycle cycle' cycles cycles'
    obtain ⟨hasked, hnext⟩ := transcript_alike hsettings hcolumns hR hsource
    rw [history, history, List.map_append, List.map_append, hasked]
    have hbehind := @ih (c.next cycle) (c'.next cycle')
    rw [settings_next, settings_next] at hbehind
    rw [hbehind hsettings hnext hR]

omit [Source σ] [Interruptible σ] [EventSink τ] in
/-- A collector is created for settings without a problem, and knows no columns. -/
theorem of_create
    {redact : (options : String) → String → Except Redaction.Failure Redaction.Redacted}
    {settings : Settings} (h : create redact settings = .ok c) :
    settings.IsValid ∧ c.settings = settings ∧ c.columns = .empty := by
  rw [create] at h
  split at h
  · cases h
  · obtain rfl := Except.ok.inj h
    exact ⟨Settings.isValid_of_problem? ‹_›, rfl, rfl⟩

/-- **The queries of a run.** A collector that has been created sends requests only, whatever names
the source has for the columns: the view in them is a plain name and the limit a positive number,
and a request has a place for a parameter exactly if it has a parameter. The texts of two runs are
the same if the settings agree in what is put into queries and the sources answer alike, however
else the settings differ and whatever else the sources answer. -/
theorem requests_of_create
    {redact : (options : String) → String → Except Redaction.Failure Redaction.Redacted}
    {settings : Settings} (hc : create redact settings = .ok c) (cycles : List (Cycle σ τ)) :
    (settings.view ≠ "" ∧
        ∀ ch ∈ settings.view.toList, ch.isAlphanum = true ∨ ch = '_' ∨ ch = '.') ∧
      (0 < settings.rowLimit ∧ IsDigits (toString settings.rowLimit).toList) ∧
      (∀ exchange ∈ c.history cycles,
        IsRequest settings exchange.sql exchange.parameters ∧
          exchange.sql.toList.count '$' = exchange.parameters.length ∧
          (Catalog.placeholder.toList <:+: exchange.sql.toList ↔ exchange.parameters ≠ [])) ∧
      ∀ {σ' τ' : Type} [Source σ'] [Interruptible σ'] [EventSink τ']
        {redact' : (options : String) → String → Except Redaction.Failure Redaction.Redacted}
        {settings' : Settings} {c' : Collector} {R : σ → σ' → Prop}
        {cycles' : List (Cycle σ' τ')},
        create redact' settings' = .ok c' → settings.AskAlike settings' →
        AnswersAlike settings.database settings'.database R →
        List.Forall₂ (fun cycle cycle' => R cycle.source cycle'.source) cycles cycles' →
          (c.history cycles).map Exchange.sql = (c'.history cycles').map Exchange.sql := by
  obtain ⟨hvalid, rfl, hcolumns⟩ := of_create hc
  have hplain := Bool.and_eq_true_iff.mp hvalid.view
  refine ⟨⟨?_, fun ch hch => ?_⟩, ⟨Nat.pos_of_ne_zero hvalid.rowLimit, ?_⟩,
    fun exchange hexchange => ?_, fun hc' hsettings hR hcycles => ?_⟩
  · rintro hempty
    rw [hempty] at hplain
    exact absurd hplain.1 (by decide)
  · simpa [or_assoc] using List.all_eq_true.mp hplain.2 ch hch
  · rw [Catalog.toList_toString]
    exact isDigits_toDigits _
  · have hknown : c.columns.InOrder := hcolumns ▸ ColumnCache.inOrder_empty
    have hrequest := isRequest_of_mem_history hknown cycles exchange hexchange
    exact ⟨hrequest, hrequest.count_eq_length hvalid.view, hrequest.placeholder_iff hvalid.view⟩
  · obtain ⟨-, rfl, hcolumns'⟩ := of_create hc'
    refine history_alike hsettings ?_ hR hcycles
    rw [hcolumns, hcolumns']
    trivial

/-- Settings for the statements of one database. -/
def shopSettings : Settings := { Settings.default with database := "shop", onlyDatabase := true }

/-- The same for another database, with a host and a tag. -/
def billingSettings : Settings :=
  { Settings.default with
    database := "billing $1", onlyDatabase := true, host := "db-2", tags := ["env:prod"] }

/-- A new collector that takes no data out of statements. -/
def newCollector (settings : Settings) : Collector :=
  { settings, redact := fun text => .ok ⟨text, .none⟩, columns := .empty, baselines := .empty,
    seen := .empty settings.textCacheSize settings.textLifetime }

/-- A cycle over a view with one more column. -/
def extendedCycle : Cycle Replying Drain :=
  ⟨0, 0.0, ⟨.ok ⟨["userid", "rows", "query", "$1; DROP TABLE users", "calls"], []⟩⟩, ⟨⟩⟩

/-- Neither a column with a hostile name nor the name of a database gets into a query. -/
theorem requests_of_create_extended :
    create (fun _ text => .ok ⟨text, .none⟩) shopSettings = .ok (newCollector shopSettings) ∧
      create (fun _ text => .ok ⟨text, .none⟩) billingSettings =
        .ok (newCollector billingSettings) ∧
      (∀ exchange ∈ (newCollector shopSettings).history [extendedCycle, extendedCycle],
        IsRequest shopSettings exchange.sql exchange.parameters) ∧
      ((newCollector shopSettings).history [extendedCycle, extendedCycle]).map Exchange.sql =
        ((newCollector billingSettings).history [answeredCycle, answeredCycle]).map
          Exchange.sql := by
  have hshop : shopSettings.problem? = none := Option.isNone_iff_eq_none.mp (by decide +kernel)
  have hbilling : billingSettings.problem? = none :=
    Option.isNone_iff_eq_none.mp (by decide +kernel)
  have hc : create (fun _ text => .ok ⟨text, .none⟩) shopSettings =
      .ok (newCollector shopSettings) := by
    rw [create, hshop]
    rfl
  have hc' : create (fun _ text => .ok ⟨text, .none⟩) billingSettings =
      .ok (newCollector billingSettings) := by
    rw [create, hbilling]
    rfl
  -- both sources give the same reply to everything, apart from the hostile name
  let R (source source' : Replying) : Prop :=
    source = extendedCycle.source ∧ source' = answeredCycle.source
  have hwanted : ∀ column ∈ Catalog.desiredColumns,
      (column ∈ ["userid", "rows", "query", "$1; DROP TABLE users", "calls"] ↔
        column ∈ ["userid", "rows", "query", "calls"]) := by
    decide +kernel
  have hR : AnswersAlike shopSettings.database billingSettings.database R := by
    refine ⟨?_, fun h => ⟨rfl, h⟩, fun _ => rfl⟩
    rintro _ _ ⟨rfl, rfl⟩ sql parameters parameters' -
    exact ⟨⟨hwanted, rfl⟩, rfl, rfl⟩
  obtain ⟨-, -, hrequests, hsame⟩ := requests_of_create hc [extendedCycle, extendedCycle]
  exact ⟨hc, hc', fun exchange h => (hrequests exchange h).1,
    hsame hc' ⟨rfl, rfl, rfl⟩ hR (.cons ⟨rfl, rfl⟩ (.cons ⟨rfl, rfl⟩ .nil))⟩

end Collector

end QueryTelemetry
