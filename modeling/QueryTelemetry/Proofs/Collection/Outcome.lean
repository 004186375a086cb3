import QueryTelemetry.Proofs.Collection.Absorption

/-!
# How a cycle ends and what its sink is handed

A cycle hands its sink the full texts that are due and behind them the metrics, and it stops at the
first event that is refused. So there are three things that can come of growth (`Sends`): there is
none and nothing is handed over; everything is accepted, the metrics last; or the last event that is
handed over is the only one that is refused. How the cycle ends says which of them it is, and with
how many events (`outcome_iff_journal`).
-/

namespace QueryTelemetry

/-! ### Texts that are drawn -/

/-- A text that is drawn is that of a statement, and the statements after it are left. -/
theorem Sampling.exists_of_next {context : EventContext} {now : Instant}
    {statements rest : List NormalStatement} {seen seen' : Seen} {event : TextEvent}
    (h : next context now statements seen = (some (event, rest), seen')) :
    ∃ s, event = TextEvent.ofStatement context s ∧ (s :: rest).Sublist statements := by
  induction statements generalizing seen with
  | nil => simp [next] at h
  | cons s more ih =>
    rw [next] at h
    split at h
    · cases h
      exact ⟨s, rfl, List.Sublist.refl _⟩
    · obtain ⟨s', hevent, hrest⟩ := ih h
      exact ⟨s', hevent, hrest.cons s⟩

/-! ### Entries of a journal -/

namespace Journal

variable {τ : Type}

/-- The events that have been accepted. -/
def accepted (journal : Journal τ) : List Event :=
  journal.entries.filterMap fun entry =>
    match entry.2 with
    | .ok () => some entry.1
    | .error _ => none

/-- The entries of full texts that have been accepted. -/
def textEntries (texts : List TextEvent) : List (Event × Except DeliveryError Unit) :=
  texts.map fun text => (.text text, .ok ())

theorem entries_of_send [EventSink τ] {event : Event} {journal journal' : Journal τ}
    {result : Except DeliveryError Unit}
    (h : EventSink.send event journal = (result, journal')) :
    journal'.entries = journal.entries ++ [(event, result)] := by
  cases h
  rfl

/-- The entry of an event stands in front of those behind it. -/
theorem entries_append_of_send [EventSink τ] {event : Event} {journal journal' : Journal τ}
    {result : Except DeliveryError Unit} (h : EventSink.send event journal = (result, journal'))
    (entries : List (Event × Except DeliveryError Unit)) :
    journal'.entries ++ entries = journal.entries ++ (event, result) :: entries := by
  rw [entries_of_send h, List.append_assoc]
  rfl

/-- Of full texts that have been accepted and one more event, the texts are accepted for certain. -/
theorem accepted_of_entries {journal : Journal τ} {texts : List TextEvent} {event : Event}
    {result : Except DeliveryError Unit}
    (h : journal.entries = textEntries texts ++ [(event, result)]) :
    journal.accepted = texts.map .text ++
      match result with
      | .ok () => [event]
      | .error _ => [] := by
  have htexts : (textEntries texts).filterMap (fun entry =>
      match entry.2 with
      | .ok () => some entry.1
      | .error _ => none) = texts.map Event.text := by
    rw [textEntries, List.filterMap_map, ← List.filterMap_eq_map]
    rfl
  rw [accepted, h, List.filterMap_append, htexts]
  rcases result with e | ⟨⟩ <;> rfl

end Journal

open Journal (textEntries)

/-! ### What is sent of growth -/

/-- What comes of growth: how a cycle ends with it, and the entries in the journal of its sink. -/
inductive Sends (context : EventContext) (growth : List NormalStatement) :
    CycleOutcome → List (Event × Except DeliveryError Unit) → Prop
  /-- There is no growth, and nothing is handed over. -/
  | nothing (h : growth = []) : Sends context growth .noRows []
  /-- Some full texts are accepted, and the event behind them is refused. -/
  | refused {drawn : List NormalStatement} (h : drawn.Sublist growth) (event : Event)
      (e : DeliveryError) :
      Sends context growth .failed
        (textEntries (drawn.map (TextEvent.ofStatement context)) ++ [(event, .error e)])
  /-- Some full texts are accepted, and behind them the metrics of all the growth. -/
  | delivered {drawn : List NormalStatement} (h : drawn.Sublist growth) (hgrowth : growth ≠ [])
      (event : MetricsEvent) (hrows : event.rows = growth.map MetricsRow.ofStatement) :
      Sends context growth (.emitted growth.length drawn.length)
        (textEntries (drawn.map (TextEvent.ofStatement context)) ++ [(.metrics event, .ok ())])

namespace Collector

variable {σ τ : Type} [EventSink τ]

/-- The texts that are handed over are those of some statements, in order. All of them are accepted,
and they are counted, unless the last one is refused. -/
theorem exists_entries_sendTexts (context : EventContext) (now : Instant)
    (statements : List NormalStatement) (seen : Sampling.Seen) (journal : Journal τ) :
    ∃ drawn : List NormalStatement, drawn.Sublist statements ∧
      let texts := textEntries (drawn.map (TextEvent.ofStatement context))
      let sent := sendTexts context now statements seen journal
      match sent.1 with
      | .ok count => count = drawn.length ∧ sent.2.2.entries = journal.entries ++ texts
      | .error e => ∃ event,
        sent.2.2.entries = journal.entries ++ texts ++ [(event, .error e)] := by
  fun_induction sendTexts context now statements seen journal with
  | case1 => exact ⟨[], List.nil_sublist _, rfl, (List.append_nil _).symm⟩
  | case2 _ _ journal event _ _ _ e journal' hsend =>
    refine ⟨[], List.nil_sublist _, .text event, ?_⟩
    rw [Journal.entries_of_send hsend]
    simp [textEntries]
  | case3 statements seen journal event rest seen' hnext journal' hsend result _ sink hrest ih =>
    obtain ⟨s, rfl, hs⟩ := Sampling.exists_of_next hnext
    obtain ⟨drawn, hdrawn, hentries⟩ := ih
    refine ⟨s :: drawn, (hdrawn.cons_cons s).trans hs, ?_⟩
    have hfirst := Journal.entries_append_of_send hsend
    rw [hrest] at hentries
    rcases result with e | count
    · obtain ⟨event, hentries⟩ := hentries
      refine ⟨event, hentries.trans ?_⟩
      rw [List.append_assoc, hfirst, List.append_assoc]
      rfl
    · obtain ⟨rfl, hentries⟩ := hentries
      exact ⟨rfl, hentries.trans (hfirst _)⟩

variable [Source σ]

/-- A cycle ends with its growth sent. -/
theorem sends_finish (now : Instant) (timestamp : Float) (growth : List NormalStatement)
    (c : Collector) (i : Inquiry σ) (sink : τ) :
    Sends (eventContext c.settings timestamp) growth
      (finish now timestamp growth c i (Journal.blank sink)).outcome
      (finish now timestamp growth c i (Journal.blank sink)).sink.entries := by
  rw [finish]
  by_cases hgrowth : growth = []
  · rw [if_pos (List.isEmpty_iff.mpr hgrowth)]
    exact .nothing hgrowth
  obtain ⟨drawn, hdrawn, hentries⟩ := exists_entries_sendTexts
    (eventContext c.settings timestamp) now growth c.seen (Journal.blank sink)
  rw [if_neg (mt List.isEmpty_iff.mp hgrowth), sendEvents]
  generalize sendTexts (eventContext c.settings timestamp) now growth c.seen
    (Journal.blank sink) = sent at hentries ⊢
  obtain ⟨result, seen, journal⟩ := sent
  rcases result with e | count
  · -- a text has been refused, and the metrics are not handed over
    obtain ⟨event, hall⟩ := hentries
    have hall : journal.entries = _ := hall
    simp only [hall]
    exact .refused hdrawn event e
  · obtain ⟨rfl, hall⟩ := hentries
    have hall : journal.entries = _ := hall
    simp only
    generalize hsend : EventSink.send _ journal = delivery
    obtain ⟨delivered, journal'⟩ := delivery
    have hlast := Journal.entries_of_send hsend
    rw [hall] at hlast
    rcases delivered with e | ⟨⟩
    · simp only [hlast]
      exact .refused hdrawn _ e
    · simp only [hlast]
      exact .delivered hdrawn hgrowth _ rfl

/-! ### Cycles -/

variable [Interruptible σ]

/-- How a cycle ends. -/
def outcome (c : Collector) (cycle : Cycle σ τ) : CycleOutcome :=
  (c.runCycle cycle.now cycle.timestamp cycle.source cycle.sink).outcome

/-- How a cycle ends does not depend on whether there is a journal. -/
theorem outcome_eq_of_journal (c : Collector) (cycle : Cycle σ τ) :
    c.outcome cycle =
      (c.runCycle cycle.now cycle.timestamp cycle.source (Journal.blank cycle.sink)).outcome := by
  rw [outcome, ← Journal.sink_blank cycle.sink, ← runCycle_journal]
  rfl

/-- A cycle that compares totals sends their growth. -/
theorem sends_of_compared {c : Collector} {cycle : Cycle σ τ} {statements : List NormalStatement}
    (h : c.compared? cycle.source = some statements) :
    Sends (eventContext c.settings cycle.timestamp)
      (c.baselines.advance (watchedMetrics statements) NormalStatement.identity statements).1
      (c.outcome cycle) (c.journal cycle).entries := by
  let advanced : Collector := { c with
    columns := (c.inquiry cycle.source).columns
    baselines := (c.baselines.advance (watchedMetrics statements) NormalStatement.identity
      statements).2 }
  rw [outcome_eq_of_journal, journal, runCycle_of_compared h]
  exact sends_finish cycle.now cycle.timestamp _ advanced (c.inquiry cycle.source) cycle.sink

/-- Any other cycle hands nothing to its sink. -/
theorem outcome_of_not_compared {c : Collector} {cycle : Cycle σ τ}
    (h : c.compared? cycle.source = none) :
    (c.outcome cycle = .noRows ∨ c.outcome cycle = .cancelled) ∧
      (c.journal cycle).entries = [] := by
  obtain ⟨outcome, houtcome, hcycle⟩ :=
    runCycle_of_not_compared h cycle.now cycle.timestamp (Journal.blank cycle.sink)
  rw [outcome_eq_of_journal, journal, hcycle]
  exact ⟨houtcome, rfl⟩

/-- The three ways in which a cycle deals with its sink. -/
theorem outcome_cases (c : Collector) (cycle : Cycle σ τ) :
    ((c.outcome cycle = .noRows ∨ c.outcome cycle = .cancelled) ∧
      (c.journal cycle).entries = []) ∨
    (c.outcome cycle = .failed ∧ ∃ sent event e,
      (c.journal cycle).entries = textEntries sent ++ [(event, .error e)]) ∨
    ∃ sent event, event.rows ≠ [] ∧ c.outcome cycle = .emitted event.rows.length sent.length ∧
      (c.journal cycle).entries = textEntries sent ++ [(.metrics event, .ok ())] := by
  rcases hcompared : c.compared? cycle.source with _ | statements
  · exact .inl (outcome_of_not_compared hcompared)
  have hsends := sends_of_compared hcompared
  generalize c.outcome cycle = outcome at hsends ⊢
  generalize (c.journal cycle).entries = entries at hsends ⊢
  rcases hsends with h | ⟨_, event, e⟩ | ⟨_, hgrowth, event, hrows⟩
  · exact .inl ⟨.inl rfl, rfl⟩
  · exact .inr (.inl ⟨rfl, _, event, e, rfl⟩)
  · refine .inr (.inr ⟨_, event, ?_, ?_, rfl⟩)
    · simpa [hrows] using hgrowth
    · rw [hrows, List.length_map, List.length_map]

theorem exists_eq_of_mem_textEntries {sent : List TextEvent}
    {entry : Event × Except DeliveryError Unit} (h : entry ∈ textEntries sent) :
    ∃ text, entry = (.text text, .ok ()) := by
  obtain ⟨text, -, rfl⟩ := List.mem_map.mp h
  exact ⟨text, rfl⟩

/-- A cycle emits what its sink has accepted: full texts, and the metrics behind them. -/
theorem outcome_eq_emitted_iff (c : Collector) (cycle : Cycle σ τ) (rows texts : Nat) :
    c.outcome cycle = .emitted rows texts ↔
      1 ≤ rows ∧ ∃ (sent : List TextEvent) (event : MetricsEvent),
        sent.length = texts ∧ event.rows.length = rows ∧
          (c.journal cycle).accepted = sent.map .text ++ [.metrics event] := by
  rcases c.outcome_cases cycle with ⟨houtcome, hentries⟩ | ⟨houtcome, sent, event, e, hentries⟩ |
    ⟨sent, event, hevent, houtcome, hentries⟩
  · have haccepted : (c.journal cycle).accepted = [] := by
      rw [Journal.accepted, hentries]
      rfl
    rw [haccepted]
    refine iff_of_false (fun h => ?_) fun ⟨_, _, _, _, _, h⟩ => ?_
    · rcases houtcome with houtcome | houtcome <;> cases houtcome.symm.trans h
    · simp at h
  · have haccepted : (c.journal cycle).accepted = sent.map .text :=
      (Journal.accepted_of_entries hentries).trans (List.append_nil _)
    rw [haccepted, houtcome]
    refine iff_of_false nofun fun ⟨_, sent', event', _, _, h⟩ => ?_
    -- only texts have been accepted
    have hmem : Event.metrics event' ∈ sent.map Event.text := by
      rw [h]
      exact List.mem_concat_self
    obtain ⟨text, -, htext⟩ := List.mem_map.mp hmem
    cases htext
  · have haccepted := Journal.accepted_of_entries hentries
    have hrows : 1 ≤ event.rows.length := List.length_pos_of_ne_nil hevent
    rw [haccepted, houtcome]
    constructor
    · intro h
      cases h
      exact ⟨hrows, sent, event, rfl, rfl, rfl⟩
    · rintro ⟨-, sent', event', rfl, rfl, h⟩
      obtain ⟨hsent, hmetrics⟩ := List.append_inj' h rfl
      have hlength := congrArg List.length hsent
      rw [List.length_map, List.length_map] at hlength
      cases hmetrics
      rw [hlength]

/-- A cycle fails with the last event that it hands over, and only then is an event refused. -/
theorem outcome_eq_failed_iff (c : Collector) (cycle : Cycle σ τ) :
    (c.outcome cycle = .failed ↔ ∃ entry ∈ (c.journal cycle).entries, ∃ e, entry.2 = .error e) ∧
      (c.outcome cycle = .failed → ∃ sent event e,
        (c.journal cycle).entries = textEntries sent ++ [(event, .error e)]) := by
  rcases c.outcome_cases cycle with ⟨houtcome, hentries⟩ | ⟨houtcome, sent, event, e, hentries⟩ |
    ⟨sent, event, hevent, houtcome, hentries⟩
  · have hne : c.outcome cycle ≠ .failed := by
      rcases houtcome with houtcome | houtcome <;> rw [houtcome] <;> exact nofun
    rw [hentries]
    exact ⟨iff_of_false hne nofun, fun h => absurd h hne⟩
  · have hlast : (event, .error e) ∈ (c.journal cycle).entries := by
      rw [hentries]
      exact List.mem_concat_self
    exact ⟨iff_of_true houtcome ⟨_, hlast, e, rfl⟩, fun _ => ⟨sent, event, e, hentries⟩⟩
  · have hne : c.outcome cycle ≠ .failed := by
      rw [houtcome]
      exact nofun
    refine ⟨iff_of_false hne fun ⟨entry, hentry, e, hrefused⟩ => ?_, fun h => absurd h hne⟩
    rw [hentries, List.mem_append, List.mem_singleton] at hentry
    rcases hentry with hentry | rfl
    · obtain ⟨text, rfl⟩ := exists_eq_of_mem_textEntries hentry
      cases hrefused
    · cases hrefused

/-- A cycle emits if and only if its sink has accepted full texts and behind them the metrics, in
these numbers; there is a row at least. If there is nothing to report, or the collector was asked to
stop, the sink is handed nothing. The cycle fails if and only if an event is refused. That is the
last event it hands over, and all events before it are full texts that have been accepted; so the
metrics are not handed over if a full text is refused. -/
theorem outcome_iff_journal (c : Collector) (cycle : Cycle σ τ) :
    (∀ rows texts, c.outcome cycle = .emitted rows texts ↔
      1 ≤ rows ∧ ∃ (sent : List TextEvent) (event : MetricsEvent),
        sent.length = texts ∧ event.rows.length = rows ∧
          (c.journal cycle).accepted = sent.map .text ++ [.metrics event]) ∧
    (c.outcome cycle = .noRows ∨ c.outcome cycle = .cancelled → (c.journal cycle).entries = []) ∧
    (c.outcome cycle = .failed ↔ ∃ entry ∈ (c.journal cycle).entries, ∃ e, entry.2 = .error e) ∧
    (c.outcome cycle = .failed → ∃ sent event e,
      (c.journal cycle).entries = textEntries sent ++ [(event, .error e)]) ∧
    (∀ text e, (.text text, .error e) ∈ (c.journal cycle).entries →
      ∀ event result, (.metrics event, result) ∉ (c.journal cycle).entries) := by
  obtain ⟨hfailed, hlast⟩ := c.outcome_eq_failed_iff cycle
  refine ⟨c.outcome_eq_emitted_iff cycle, fun houtcome => ?_, hfailed, hlast,
    fun text e hrefused event result hmetrics => ?_⟩
  · rcases c.outcome_cases cycle with ⟨-, hentries⟩ | ⟨hother, -⟩ | ⟨_, _, _, hother, -⟩
    · exact hentries
    · simp [hother] at houtcome
    · simp [hother] at houtcome
  · obtain ⟨sent, last, e', hentries⟩ := hlast (hfailed.mpr ⟨_, hrefused, e, rfl⟩)
    rw [hentries, List.mem_append, List.mem_singleton] at hrefused hmetrics
    -- both events would have to be the last one
    rcases hrefused with hrefused | hrefused
    · obtain ⟨text', h⟩ := exists_eq_of_mem_textEntries hrefused
      cases h
    rcases hmetrics with hmetrics | hmetrics
    · obtain ⟨text', h⟩ := exists_eq_of_mem_textEntries hmetrics
      cases h
    · cases hrefused
      cases hmetrics

end Collector

end QueryTelemetry
