import QueryTelemetry.Collection

/-!
# Sending events to a sink

Of its sink a cycle sees only what becomes of the events. A map of sinks under which the same
becomes of every event commutes with a cycle therefore (`runCycle_map`): whatever else a sink does
has no influence on the collector.
-/

namespace QueryTelemetry

/-- The same becomes of an event in a sink and in its image. -/
def IsSinkMap {τ τ' : Type} [EventSink τ] [EventSink τ'] (f : τ → τ') : Prop :=
  ∀ event sink,
    EventSink.send event (f sink) =
      ((EventSink.send event sink).1, f (EventSink.send event sink).2)

/-- The report of a cycle, with another sink. -/
def CycleReport.mapSink {σ τ τ' : Type} (f : τ → τ') (report : CycleReport σ τ) :
    CycleReport σ τ' :=
  ⟨report.outcome, report.diagnostics, report.log, report.collector, report.source,
    f report.sink⟩

namespace Collector

variable {σ τ : Type} [EventSink τ]

/-! ### Full texts -/

section

variable {context : EventContext} {now : Instant} {statements rest : List NormalStatement}
  {seen seen' : Sampling.Seen} {sink sink' : τ} {event : TextEvent}

/-- The sending ends when no text is due. -/
theorem sendTexts_of_none (h : Sampling.next context now statements seen = (none, seen')) :
    sendTexts context now statements seen sink = (.ok 0, seen', sink) := by
  rw [sendTexts]
  split
  · rename_i hnone
    rw [h] at hnone
    cases hnone
    rfl
  · rename_i hsome
    rw [h] at hsome
    cases hsome

/-- The sending ends at the first text that is refused. -/
theorem sendTexts_of_error {e : DeliveryError}
    (h : Sampling.next context now statements seen = (some (event, rest), seen'))
    (hsend : EventSink.send (.text event) sink = (.error e, sink')) :
    sendTexts context now statements seen sink = (.error e, seen', sink') := by
  rw [sendTexts]
  split
  · rename_i hnone
    rw [h] at hnone
    cases hnone
  · rename_i hsome
    rw [h] at hsome
    cases hsome
    rw [hsend]

/-- The sending goes on behind a text that is accepted. -/
theorem sendTexts_of_ok
    (h : Sampling.next context now statements seen = (some (event, rest), seen'))
    (hsend : EventSink.send (.text event) sink = (.ok (), sink')) :
    sendTexts context now statements seen sink =
      ((sendTexts context now rest seen' sink').1.map (· + 1),
        (sendTexts context now rest seen' sink').2) := by
  rw [sendTexts]
  split
  · rename_i hnone
    rw [h] at hnone
    cases hnone
  · rename_i hsome
    rw [h] at hsome
    cases hsome
    rw [hsend]

end

variable {τ' : Type} [EventSink τ'] {f : τ → τ'}

theorem sendTexts_map (hf : IsSinkMap f) (context : EventContext) (now : Instant)
    (statements : List NormalStatement) (seen : Sampling.Seen) (sink : τ) :
    sendTexts context now statements seen (f sink) =
      ((sendTexts context now statements seen sink).1,
        (sendTexts context now statements seen sink).2.1,
        f (sendTexts context now statements seen sink).2.2) := by
  fun_induction sendTexts context now statements seen sink with
  | case1 _ _ _ _ hnext => rw [sendTexts_of_none hnext]
  | case2 _ _ sink event _ _ hnext _ _ hsend =>
    have himage := hf (.text event) sink
    rw [hsend] at himage
    rw [sendTexts_of_error hnext himage]
  | case3 _ _ sink event _ _ hnext _ hsend _ _ _ hrest ih =>
    have himage := hf (.text event) sink
    rw [hsend] at himage
    rw [hrest] at ih
    rw [sendTexts_of_ok hnext himage, ih]

/-! ### Cycles -/

theorem sendEvents_map [Source σ] (hf : IsSinkMap f) (settings : Settings) (now : Instant)
    (timestamp : Float) (growth : List NormalStatement) (seen : Sampling.Seen) (source : σ)
    (sink : τ) :
    sendEvents settings now timestamp growth seen source (f sink) =
      ((sendEvents settings now timestamp growth seen source sink).1,
        (sendEvents settings now timestamp growth seen source sink).2.1,
        (sendEvents settings now timestamp growth seen source sink).2.2.1,
        f (sendEvents settings now timestamp growth seen source sink).2.2.2) := by
  have htexts := sendTexts_map hf (eventContext settings timestamp) now growth seen sink
  rw [sendEvents, sendEvents, htexts]
  generalize sendTexts (eventContext settings timestamp) now growth seen sink = sent
  obtain ⟨result, seen, sink⟩ := sent
  cases result with
  | error e => rfl
  | ok texts =>
    simp only [hf _ sink]
    generalize EventSink.send _ sink = delivery
    obtain ⟨delivered, sink⟩ := delivery
    cases delivered <;> rfl

theorem finish_map [Source σ] (hf : IsSinkMap f) (now : Instant) (timestamp : Float)
    (growth : List NormalStatement) (c : Collector) (i : Inquiry σ) (sink : τ) :
    (finish now timestamp growth c i sink).mapSink f =
      finish now timestamp growth c i (f sink) := by
  rw [finish, finish, sendEvents_map hf]
  by_cases hgrowth : growth.isEmpty = true
  · rw [if_pos hgrowth, if_pos hgrowth]
    rfl
  · rw [if_neg hgrowth, if_neg hgrowth]
    generalize sendEvents c.settings now timestamp growth c.seen i.source sink = delivery
    obtain ⟨sent, seen, source, sink⟩ := delivery
    cases sent <;> rfl

/-- What else a sink does has no influence on a cycle. -/
theorem runCycle_map [Source σ] [Interruptible σ] (hf : IsSinkMap f) (now : Instant)
    (timestamp : Float) (c : Collector) (source : σ) (sink : τ) :
    (c.runCycle now timestamp source sink).mapSink f =
      c.runCycle now timestamp source (f sink) := by
  rw [runCycle, runCycle]
  generalize (Inquiry.gather c.settings).run ⟨source, c.columns, [], []⟩ = inquiry
  obtain ⟨gathered, i⟩ := inquiry
  cases gathered with
  | error outcome => rfl
  | ok rows =>
    by_cases hstatements : (Redaction.normalStatements c.redact rows).isEmpty = true
    · simp only [if_pos hstatements]
      rfl
    · simp only [if_neg hstatements]
      exact finish_map hf now timestamp _ _ i sink

end Collector

end QueryTelemetry
