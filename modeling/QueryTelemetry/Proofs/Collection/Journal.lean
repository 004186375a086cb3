import QueryTelemetry.Proofs.Collection.Sending

/-!
# What a sink is handed

A `Journal` hands events on to another sink, and writes down each of them with what has become of
it, also if it is refused. A cycle goes the same way with a journal as without (`runCycle_journal`),
so the journal says what any sink is handed: of the metrics, all the growth at once, unless a full
text has been refused before (`finish_journal`).
-/

namespace QueryTelemetry

/-- A sink with the events that it has been handed, in order, and what has become of each. -/
structure Journal (τ : Type) where
  sink : τ
  entries : List (Event × Except DeliveryError Unit)

namespace Journal

variable {τ : Type}

/-- The rows of an event with metrics. -/
def rowsOf? : Event → Option (List MetricsRow)
  | .text _ => none
  | .metrics event => some event.rows

/-- The rows that have been handed over, one list for each event with metrics. -/
def handedRows (journal : Journal τ) : List (List MetricsRow) :=
  journal.entries.filterMap fun entry => rowsOf? entry.1

/-- Nothing has been handed over yet. -/
def blank (sink : τ) : Journal τ := ⟨sink, []⟩

@[simp] theorem sink_blank (sink : τ) : (blank sink).sink = sink := rfl

@[simp] theorem handedRows_blank (sink : τ) : (blank sink).handedRows = [] := rfl

variable [EventSink τ] {journal journal' : Journal τ} {result : Except DeliveryError Unit}

/-- Hands on an event, and writes down what becomes of it. -/
def send (event : Event) (journal : Journal τ) : Except DeliveryError Unit × Journal τ :=
  let (result, sink) := EventSink.send event journal.sink
  (result, ⟨sink, journal.entries ++ [(event, result)]⟩)

instance : EventSink (Journal τ) := ⟨send⟩

/-- The journal has no influence on what becomes of an event. -/
theorem isSinkMap_sink : IsSinkMap (Journal.sink : Journal τ → τ) := fun _ _ => rfl

theorem handedRows_of_send {event : Event}
    (h : EventSink.send event journal = (result, journal')) :
    journal'.handedRows = journal.handedRows ++ (rowsOf? event).toList := by
  obtain ⟨-, rfl⟩ := Prod.ext_iff.mp h
  change (journal.entries ++ [_]).filterMap _ = _
  rw [List.filterMap_append, List.filterMap_cons]
  cases hrows : rowsOf? event <;> rfl

end Journal

namespace Collector

variable {σ τ : Type} [EventSink τ]

/-- A cycle goes the same way with a journal as without. -/
theorem runCycle_journal [Source σ] [Interruptible σ] (now : Instant) (timestamp : Float)
    (c : Collector) (source : σ) (journal : Journal τ) :
    (c.runCycle now timestamp source journal).mapSink Journal.sink =
      c.runCycle now timestamp source journal.sink :=
  runCycle_map Journal.isSinkMap_sink now timestamp c source journal

/-- Full texts have no rows. -/
theorem handedRows_sendTexts (context : EventContext) (now : Instant)
    (statements : List NormalStatement) (seen : Sampling.Seen) (journal : Journal τ) :
    (sendTexts context now statements seen journal).2.2.handedRows = journal.handedRows := by
  fun_induction sendTexts context now statements seen journal with
  | case1 => rfl
  | case2 _ _ _ _ _ _ _ _ _ hsend =>
    exact (Journal.handedRows_of_send hsend).trans (List.append_nil _)
  | case3 _ _ _ _ _ _ _ _ hsend _ _ _ hrest ih =>
    rw [hrest] at ih
    exact ih.trans ((Journal.handedRows_of_send hsend).trans (List.append_nil _))

/-- What comes of growth: the texts that have been seen afterwards, and the rows that the sink is
handed. These are all the growth at once, unless a full text is refused. -/
def dispatch (settings : Settings) (now : Instant) (timestamp : Float)
    (growth : List NormalStatement) (seen : Sampling.Seen) (sink : τ) :
    Sampling.Seen × List (List MetricsRow) :=
  if growth.isEmpty then (seen, [])
  else
    match sendTexts (eventContext settings timestamp) now growth seen sink with
    | (.error _, seen, _) => (seen, [])
    | (.ok _, seen, _) => (seen, [growth.map MetricsRow.ofStatement])

/-- A cycle ends with its growth dispatched, whatever the source says about its version. -/
theorem finish_journal [Source σ] (now : Instant) (timestamp : Float)
    (growth : List NormalStatement) (c : Collector) (i : Inquiry σ) (sink : τ) :
    let report := finish now timestamp growth c i (Journal.blank sink)
    let dispatched := dispatch c.settings now timestamp growth c.seen sink
    report.collector = { c with seen := dispatched.1 } ∧
      report.sink.handedRows = dispatched.2 := by
  rw [finish, dispatch]
  by_cases hgrowth : growth.isEmpty = true
  · rw [if_pos hgrowth, if_pos hgrowth]
    exact ⟨rfl, rfl⟩
  · rw [if_neg hgrowth, if_neg hgrowth]
    have hrows := handedRows_sendTexts (eventContext c.settings timestamp) now growth c.seen
      (Journal.blank sink)
    have htexts := sendTexts_map Journal.isSinkMap_sink (eventContext c.settings timestamp) now
      growth c.seen (Journal.blank sink)
    rw [Journal.handedRows_blank] at hrows
    rw [Journal.sink_blank] at htexts
    rw [sendEvents, htexts]
    generalize sendTexts (eventContext c.settings timestamp) now growth c.seen
      (Journal.blank sink) = sent at hrows
    obtain ⟨result, seen, journal⟩ := sent
    cases result with
    | error e =>
      -- a text has been refused, so the metrics are not handed over at all
      exact ⟨rfl, hrows⟩
    | ok texts =>
      simp only
      generalize hsend : EventSink.send _ journal = delivery
      obtain ⟨delivered, journal'⟩ := delivery
      have hhanded := Journal.handedRows_of_send hsend
      rw [hrows, List.nil_append] at hhanded
      -- the metrics have been handed over, whatever becomes of them
      cases delivered with
      | error e => exact ⟨rfl, hhanded⟩
      | ok accepted => exact ⟨rfl, hhanded⟩

end Collector

end QueryTelemetry
