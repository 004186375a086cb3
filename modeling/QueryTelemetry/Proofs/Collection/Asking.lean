import QueryTelemetry.Proofs.Collection.Retrieval

/-!
# Asking a source

Of its source a cycle sees only the answers, the version, and whether it may go on. A map of sources
under which these stay the same commutes with a cycle therefore (`runCycle_mapSource`): whatever
else a source does has no influence on the collector.
-/

namespace QueryTelemetry

/-- A source and its image answer alike. -/
structure IsSourceMap {σ σ' : Type} [Source σ] [Source σ'] [Interruptible σ] [Interruptible σ']
    (f : σ → σ') : Prop where
  query : ∀ sql parameters source,
    Source.query sql parameters (f source) =
      ((Source.query sql parameters source).1, f (Source.query sql parameters source).2)
  serverVersion : ∀ source,
    Source.serverVersion (f source) =
      ((Source.serverVersion source).1, f (Source.serverVersion source).2)
  isRunning : ∀ source, Interruptible.isRunning (f source) = Interruptible.isRunning source

/-- The report of a cycle, with another source. -/
def CycleReport.mapSource {σ σ' τ : Type} (f : σ → σ') (report : CycleReport σ τ) :
    CycleReport σ' τ :=
  ⟨report.outcome, report.diagnostics, report.log, report.collector, f report.source, report.sink⟩

namespace Inquiry

variable {σ σ' α β : Type}

/-- The state of an inquiry, with another source. -/
def mapSource (f : σ → σ') (i : Inquiry σ) : Inquiry σ' :=
  ⟨f i.source, i.columns, i.diagnostics, i.log⟩

/-- Computations over corresponding states have the same result, and corresponding states behind
them. -/
def Commutes (f : σ → σ') (m : StateM (Inquiry σ) α) (m' : StateM (Inquiry σ') α) : Prop :=
  ∀ i, m'.run (i.mapSource f) = ((m.run i).1, (m.run i).2.mapSource f)

variable {f : σ → σ'}

/-! ### Composition -/

theorem commutes_pure (a : α) : Commutes f (pure a) (pure a) := fun _ => rfl

theorem Commutes.bind {first : StateM (Inquiry σ) α} {first' : StateM (Inquiry σ') α}
    {next : α → StateM (Inquiry σ) β} {next' : α → StateM (Inquiry σ') β}
    (hfirst : Commutes f first first') (hnext : ∀ a, Commutes f (next a) (next' a)) :
    Commutes f (first >>= next) (first' >>= next') := by
  intro i
  rw [run_bind, run_bind, hfirst i]
  exact hnext _ _

theorem Commutes.ite {m n : StateM (Inquiry σ) α} {m' n' : StateM (Inquiry σ') α} (b : Bool)
    (hm : Commutes f m m') (hn : Commutes f n n') :
    Commutes f (if b then m else n) (if b then m' else n') := by
  rcases b with _ | _
  · exact hn
  · exact hm

theorem commutes_report (d : Diagnostic) : Commutes f (report d) (report d) := fun _ => rfl

theorem commutes_note (entry : LogEntry) : Commutes f (note entry) (note entry) := fun _ => rfl

theorem commutes_queryFailed (settings : Settings) (e : QueryError) :
    Commutes f (queryFailed settings e) (queryFailed settings e) := fun _ => rfl

/-! ### Queries -/

variable [Source σ] [Source σ'] [Interruptible σ] [Interruptible σ'] (hf : IsSourceMap f)
include hf

theorem commutes_ask (sql : String) (parameters : List String) :
    Commutes f (ask sql parameters) (ask sql parameters) := by
  intro i
  rw [ask_run, ask_run, mapSource, hf.query]
  rfl

theorem commutes_serverVersion : Commutes f serverVersion serverVersion := by
  intro i
  have hrun : ∀ {σ : Type} [Source σ] (i : Inquiry σ), serverVersion.run i =
      ((Source.serverVersion i.source).1,
        { i with source := (Source.serverVersion i.source).2 }) := fun _ => rfl
  rw [hrun, hrun, mapSource, hf.serverVersion]
  rfl

theorem commutes_isRunning : Commutes f isRunning isRunning := by
  intro i
  exact congrArg (·, i.mapSource f) (hf.isRunning i.source)

theorem commutes_availableColumns (settings : Settings) :
    Commutes f (availableColumns settings) (availableColumns settings) := by
  intro i
  -- the known columns are the same on both sides
  have himage : (i.mapSource f).columns = i.columns := rfl
  rcases hcolumns : i.columns with ⟨_ | columns⟩ <;> rw [hcolumns] at himage
  · have hask := commutes_ask hf (Catalog.discoveryQuery settings.view) [] i
    rw [availableColumns_of_unknown hcolumns, availableColumns_of_unknown himage, hask]
    generalize (ask _ _).run i = answer
    obtain ⟨answer, j⟩ := answer
    rcases answer with e | result <;> rfl
  · rw [availableColumns_of_known hcolumns, availableColumns_of_known himage]

theorem commutes_fetch (settings : Settings) :
    Commutes f (fetch settings) (fetch settings) := by
  refine (commutes_availableColumns hf settings).bind fun answer => ?_
  rcases answer with e | available
  · exact (commutes_queryFailed settings e).bind fun _ => commutes_pure _
  refine .ite _ ((commutes_ask hf _ _).bind fun answer => ?_) ?_
  · rcases answer with e | result
    · exact (commutes_queryFailed settings e).bind fun _ => commutes_pure _
    · exact commutes_pure _
  · exact (commutes_note _).bind fun _ => (commutes_report _).bind fun _ => commutes_pure _

theorem commutes_reportNumber (settings : Settings) (metric sql column : String) :
    Commutes f (reportNumber settings metric sql column)
      (reportNumber settings metric sql column) := by
  refine (commutes_ask hf sql []).bind fun answer => ?_
  rcases answer with e | result
  · exact commutes_note _
  · simp only
    rcases firstNumber? column result with _ | value
    · exact commutes_note _
    · exact commutes_report _

theorem commutes_reportOccupancy (settings : Settings) :
    Commutes f (reportOccupancy settings) (reportOccupancy settings) :=
  (commutes_serverVersion hf).bind fun _ =>
    (commutes_reportNumber hf settings _ _ _).bind fun _ => commutes_reportNumber hf settings _ _ _

theorem commutes_gather (settings : Settings) :
    Commutes f (gather settings) (gather settings) := by
  refine (commutes_isRunning hf).bind fun running => .ite _ (commutes_pure _) ?_
  refine (commutes_fetch hf settings).bind fun rows => .ite _ (commutes_pure _) ?_
  refine (commutes_reportOccupancy hf settings).bind fun _ => ?_
  exact (commutes_isRunning hf).bind fun running =>
    .ite _ (commutes_pure _) (commutes_pure _)

end Inquiry

/-! ### Cycles -/

namespace Collector

variable {σ σ' τ : Type} [Source σ] [Source σ'] [EventSink τ] [Interruptible σ] [Interruptible σ']
  {f : σ → σ'} (hf : IsSourceMap f)
include hf

theorem sendEvents_mapSource (settings : Settings) (now : Instant) (timestamp : Float)
    (growth : List NormalStatement) (seen : Sampling.Seen) (source : σ) (sink : τ) :
    sendEvents settings now timestamp growth seen (f source) sink =
      ((sendEvents settings now timestamp growth seen source sink).1,
        (sendEvents settings now timestamp growth seen source sink).2.1,
        f (sendEvents settings now timestamp growth seen source sink).2.2.1,
        (sendEvents settings now timestamp growth seen source sink).2.2.2) := by
  rw [sendEvents, sendEvents]
  generalize sendTexts (eventContext settings timestamp) now growth seen sink = sent
  obtain ⟨result, seen, sink⟩ := sent
  rcases result with e | texts
  · rfl
  · simp only [hf.serverVersion]
    generalize EventSink.send _ sink = delivery
    obtain ⟨delivered, sink⟩ := delivery
    rcases delivered with e | accepted <;> rfl

theorem finish_mapSource (now : Instant) (timestamp : Float) (growth : List NormalStatement)
    (c : Collector) (i : Inquiry σ) (sink : τ) :
    (finish now timestamp growth c i sink).mapSource f =
      finish now timestamp growth c (i.mapSource f) sink := by
  have hsent := sendEvents_mapSource hf c.settings now timestamp growth c.seen i.source sink
  rw [finish, finish, Inquiry.mapSource, hsent]
  by_cases hgrowth : growth.isEmpty = true
  · rw [if_pos hgrowth, if_pos hgrowth]
    rfl
  · rw [if_neg hgrowth, if_neg hgrowth]
    generalize sendEvents c.settings now timestamp growth c.seen i.source sink = delivery
    obtain ⟨sent, seen, source, sink⟩ := delivery
    rcases sent with e | outcome <;> rfl

/-- What else a source does has no influence on a cycle. -/
theorem runCycle_mapSource (now : Instant) (timestamp : Float) (c : Collector) (source : σ)
    (sink : τ) :
    (c.runCycle now timestamp source sink).mapSource f =
      c.runCycle now timestamp (f source) sink := by
  have hgather := Inquiry.commutes_gather hf c.settings ⟨source, c.columns, [], []⟩
  rw [runCycle, runCycle]
  rw [Inquiry.mapSource] at hgather
  rw [hgather]
  generalize (Inquiry.gather c.settings).run ⟨source, c.columns, [], []⟩ = inquiry
  obtain ⟨gathered, i⟩ := inquiry
  rcases gathered with outcome | rows
  · rfl
  by_cases hstatements : (Redaction.normalStatements c.redact rows).isEmpty = true
  · simp only [if_pos hstatements]
    rfl
  · simp only [if_neg hstatements]
    exact finish_mapSource hf now timestamp _ _ i sink

end Collector

end QueryTelemetry
