import QueryTelemetry.Proofs.Collection.Sending

/-!
# Recording accepted events

A `Recorder` is a sink that keeps a record of the events that another sink accepts. Nothing else
about a cycle changes when its sink is recorded (`runCycle_recorder`), so the record says what any
sink has accepted.
-/

namespace QueryTelemetry

/-- A sink with the events that it has accepted, in order. -/
structure Recorder (τ : Type) where
  sink : τ
  accepted : List Event

namespace Recorder

variable {τ : Type} [EventSink τ]

/-- Hands an event to the sink, and records it if it is accepted. -/
def send (event : Event) (recorder : Recorder τ) : Except DeliveryError Unit × Recorder τ :=
  match EventSink.send event recorder.sink with
  | (.ok (), sink) => (.ok (), ⟨sink, recorder.accepted ++ [event]⟩)
  | (.error e, sink) => (.error e, ⟨sink, recorder.accepted⟩)

instance : EventSink (Recorder τ) := ⟨send⟩

variable {event : Event} {recorder recorder' : Recorder τ}

/-- Recording has no influence on what becomes of an event. -/
theorem isSinkMap_sink : IsSinkMap (Recorder.sink : Recorder τ → τ) := by
  intro event recorder
  change _ = ((send event recorder).1, (send event recorder).2.sink)
  unfold send
  split <;> assumption

theorem accepted_of_send_ok (h : EventSink.send event recorder = (.ok (), recorder')) :
    recorder'.accepted = recorder.accepted ++ [event] := by
  change send event recorder = _ at h
  unfold send at h
  split at h
  · obtain ⟨-, rfl⟩ := Prod.ext_iff.mp h
    rfl
  · cases (Prod.ext_iff.mp h).1

theorem accepted_of_send_error {e : DeliveryError}
    (h : EventSink.send event recorder = (.error e, recorder')) :
    recorder'.accepted = recorder.accepted := by
  change send event recorder = _ at h
  unfold send at h
  split at h
  · cases (Prod.ext_iff.mp h).1
  · obtain ⟨-, rfl⟩ := Prod.ext_iff.mp h
    rfl

end Recorder

namespace Collector

variable {σ τ : Type} [EventSink τ]

/-! ### Full texts -/

/-- Sending full texts adds texts to the record. -/
theorem exists_accepted_sendTexts (context : EventContext) (now : Instant)
    (statements : List NormalStatement) (seen : Sampling.Seen) (recorder : Recorder τ) :
    ∃ texts : List TextEvent,
      (sendTexts context now statements seen recorder).2.2.accepted =
        recorder.accepted ++ texts.map .text := by
  fun_induction sendTexts context now statements seen recorder with
  | case1 => exact ⟨[], (List.append_nil _).symm⟩
  | case2 _ _ _ _ _ _ _ _ _ hsend =>
    exact ⟨[], by simp [Recorder.accepted_of_send_error hsend]⟩
  | case3 _ _ _ event _ _ _ _ hsend _ _ _ hrest ih =>
    obtain ⟨texts, htexts⟩ := ih
    rw [hrest, Recorder.accepted_of_send_ok hsend, List.append_assoc] at htexts
    exact ⟨event :: texts, htexts⟩

/-! ### Cycles -/

variable {settings : Settings} {now : Instant} {timestamp : Float}
  {growth : List NormalStatement} {seen seen' : Sampling.Seen} {source source' : σ}

/-- When the events of a cycle are sent, some texts are accepted, and behind them the metrics unless
the sending fails. -/
theorem exists_accepted_sendEvents [Source σ] {recorder recorder' : Recorder τ}
    {result : Except DeliveryError CycleOutcome}
    (h : sendEvents settings now timestamp growth seen source recorder =
      (result, seen', source', recorder')) :
    ∃ texts : List TextEvent,
      ((∃ e, result = .error e) ∧ recorder'.accepted = recorder.accepted ++ texts.map .text) ∨
      ∃ sent event, result = .ok (.emitted growth.length sent) ∧
        event.rows = growth.map MetricsRow.ofStatement ∧
        recorder'.accepted = recorder.accepted ++ texts.map .text ++ [.metrics event] := by
  obtain ⟨texts, htexts⟩ :=
    exists_accepted_sendTexts (eventContext settings timestamp) now growth seen recorder
  refine ⟨texts, ?_⟩
  rw [sendEvents] at h
  simp only at h
  split at h
  · rename_i e _ _ hsent
    rw [hsent] at htexts
    cases h
    exact .inl ⟨⟨e, rfl⟩, htexts⟩
  · rename_i hsent
    rw [hsent] at htexts
    split at h
    · rename_i e _ hsend
      cases h
      exact .inl ⟨⟨e, rfl⟩, (Recorder.accepted_of_send_error hsend).trans htexts⟩
    · rename_i hsend
      cases h
      have haccepted := Recorder.accepted_of_send_ok hsend
      rw [htexts] at haccepted
      exact .inr ⟨_, _, rfl, rfl, haccepted⟩

/-- Recording has no influence on a cycle. -/
theorem runCycle_recorder [Source σ] [Interruptible σ] (now : Instant) (timestamp : Float)
    (c : Collector) (source : σ) (recorder : Recorder τ) :
    (c.runCycle now timestamp source recorder).mapSink Recorder.sink =
      c.runCycle now timestamp source recorder.sink :=
  runCycle_map Recorder.isSinkMap_sink now timestamp c source recorder

end Collector

end QueryTelemetry
