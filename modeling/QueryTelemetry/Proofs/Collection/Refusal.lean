import QueryTelemetry.Proofs.Collection.Conservation
import QueryTelemetry.Proofs.Collection.Outcome
import QueryTelemetry.Proofs.Sampling.Resumption

/-!
# Texts that are refused

A cycle draws a full text, hands it to its sink, and draws the next one only when it has been
accepted. So a cycle whose sink refuses a text has drawn this text and those before it, and no more
(`StopsAtRefusal`). Their identities count as seen, the refused one included. For every other
identity nothing has changed, and the metrics are not handed over.
-/

namespace QueryTelemetry

open Journal (textEntries)
open Sampling (draw drain drainAnew)

/-- Of full texts that have been accepted and one more event, each entry is that of an accepted text
or the last one. -/
theorem Journal.of_mem_concat {texts : List TextEvent}
    {entry last : Event × Except DeliveryError Unit} (h : entry ∈ textEntries texts ++ [last]) :
    (∃ text, entry = (.text text, .ok ())) ∨ entry = last := by
  rw [List.mem_append, List.mem_singleton] at h
  exact h.imp_left Collector.exists_eq_of_mem_textEntries

namespace Collector

variable {σ τ : Type} [EventSink τ]

/-! ### Growth that is sent -/

/-- Texts are drawn as they are sent: all that are due, or those up to the one that is refused. -/
theorem sendTexts_eq_draw (context : EventContext) (now : Instant)
    (statements : List NormalStatement) (seen : Sampling.Seen) (journal : Journal τ) :
    let sent := sendTexts context now statements seen journal
    match sent.1 with
    | .ok _ => ∃ events, drain context now statements seen = (events, sent.2.1) ∧
      sent.2.2.entries = journal.entries ++ textEntries events
    | .error e => ∃ events event,
      draw context now (events.length + 1) statements seen = (events ++ [event], sent.2.1) ∧
        sent.2.2.entries = journal.entries ++ textEntries events ++ [(.text event, .error e)] := by
  fun_induction sendTexts context now statements seen journal with
  | case1 statements seen journal seen' hnext =>
    exact ⟨[], Sampling.drain_of_next_eq_none hnext, (List.append_nil _).symm⟩
  | case2 statements seen journal event rest seen' hnext e journal' hsend =>
    refine ⟨[], event, Sampling.draw_of_next hnext 0, ?_⟩
    rw [Journal.entries_of_send hsend]
    simp [textEntries]
  | case3 statements seen journal event rest seen' hnext journal' hsend result _ sink hrest ih =>
    have hfirst := Journal.entries_append_of_send hsend
    rw [hrest] at ih
    rcases result with e | count
    · obtain ⟨events, last, hdraw, hentries⟩ := ih
      refine ⟨event :: events, last, ?_, ?_⟩
      · rw [List.length_cons, Sampling.draw_of_next hnext, hdraw]
        rfl
      · refine hentries.trans ?_
        rw [List.append_assoc, hfirst, List.append_assoc]
        rfl
    · obtain ⟨events, hdrain, hentries⟩ := ih
      refine ⟨event :: events, ?_, hentries.trans (hfirst _)⟩
      rw [Sampling.drain_of_next hnext, hdrain]

/-- What comes of growth, by the set of seen identities before and after and the entries in the
journal of the sink: some events have been drawn, and if a text is refused, those up to it and no
more. -/
structure StopsAtRefusal (context : EventContext) (now : Instant) (growth : List NormalStatement)
    (seen seen' : Sampling.Seen) (entries : List (Event × Except DeliveryError Unit)) : Prop where
  drawn : ∃ count, (draw context now count growth seen).2 = seen'
  of_refused : ∀ event e, (.text event, .error e) ∈ entries → ∃ events,
    entries = textEntries events ++ [(.text event, .error e)] ∧
      draw context now (events.length + 1) growth seen = (events ++ [event], seen')

section

variable {context : EventContext} {now : Instant} {growth : List NormalStatement}
  {seen seen' : Sampling.Seen} {events : List TextEvent}

theorem StopsAtRefusal.nothing : StopsAtRefusal context now growth seen seen [] :=
  ⟨⟨0, rfl⟩, fun _ _ hrefused => absurd hrefused List.not_mem_nil⟩

theorem StopsAtRefusal.refused {event : TextEvent} (e : DeliveryError)
    (h : draw context now (events.length + 1) growth seen = (events ++ [event], seen')) :
    StopsAtRefusal context now growth seen seen'
      (textEntries events ++ [(.text event, .error e)]) := by
  refine ⟨⟨events.length + 1, congrArg Prod.snd h⟩, fun text e' hrefused => ?_⟩
  rcases Journal.of_mem_concat hrefused with ⟨accepted, haccepted⟩ | hlast
  · cases haccepted
  · cases hlast
    exact ⟨events, rfl, h⟩

/-- Whatever becomes of the metrics. -/
theorem StopsAtRefusal.drained (event : MetricsEvent) (result : Except DeliveryError Unit)
    (h : drain context now growth seen = (events, seen')) :
    StopsAtRefusal context now growth seen seen'
      (textEntries events ++ [(.metrics event, result)]) := by
  refine ⟨⟨growth.length + 1, congrArg Prod.snd h⟩, fun text e hrefused => ?_⟩
  rcases Journal.of_mem_concat hrefused with ⟨accepted, haccepted⟩ | hlast
  · cases haccepted
  · cases hlast

end

variable [Source σ]

theorem stopsAtRefusal_sendEvents (settings : Settings) (now : Instant) (timestamp : Float)
    (growth : List NormalStatement) (seen : Sampling.Seen) (source : σ) (sink : τ) :
    let sent := sendEvents settings now timestamp growth seen source (Journal.blank sink)
    StopsAtRefusal (eventContext settings timestamp) now growth seen sent.2.1
      sent.2.2.2.entries := by
  have hsent := sendTexts_eq_draw (eventContext settings timestamp) now growth seen
    (Journal.blank sink)
  rw [sendEvents]
  generalize sendTexts (eventContext settings timestamp) now growth seen
    (Journal.blank sink) = sent at hsent ⊢
  obtain ⟨result, seen', journal⟩ := sent
  rcases result with e | count
  · obtain ⟨events, event, hdraw, hentries⟩ := hsent
    have hentries : journal.entries = textEntries events ++ [(.text event, .error e)] := hentries
    simp only [hentries]
    exact .refused e hdraw
  · obtain ⟨events, hdrain, hentries⟩ := hsent
    have hentries : journal.entries = textEntries events := hentries
    simp only
    generalize hsend : EventSink.send _ journal = delivery
    obtain ⟨delivered, journal'⟩ := delivery
    have hlast := Journal.entries_of_send hsend
    rw [hentries] at hlast
    rcases delivered with e | ⟨⟩ <;> simp only [hlast] <;> exact .drained _ _ hdrain

theorem stopsAtRefusal_finish (now : Instant) (timestamp : Float) (growth : List NormalStatement)
    (c : Collector) (i : Inquiry σ) (sink : τ) :
    let report := finish now timestamp growth c i (Journal.blank sink)
    StopsAtRefusal (eventContext c.settings timestamp) now growth c.seen report.collector.seen
      report.sink.entries := by
  rw [finish]
  by_cases hgrowth : growth = []
  · rw [if_pos (List.isEmpty_iff.mpr hgrowth)]
    exact .nothing
  · have hsent := stopsAtRefusal_sendEvents c.settings now timestamp growth c.seen i.source sink
    rw [if_neg (mt List.isEmpty_iff.mp hgrowth)]
    generalize sendEvents c.settings now timestamp growth c.seen i.source
      (Journal.blank sink) = sent at hsent ⊢
    obtain ⟨result, seen, source, journal⟩ := sent
    rcases result with e | outcome <;> exact hsent

/-! ### Cycles -/

variable [Interruptible σ]

/-- The statements that have grown, if totals are compared. -/
def growth (c : Collector) (source : σ) : List NormalStatement :=
  match c.compared? source with
  | none => []
  | some statements =>
    (c.baselines.advance (watchedMetrics statements) NormalStatement.identity statements).1

/-- Every cycle stops at a text that is refused. -/
theorem stopsAtRefusal_cycle (c : Collector) (cycle : Cycle σ τ) :
    StopsAtRefusal (eventContext c.settings cycle.timestamp) cycle.now (c.growth cycle.source)
      c.seen (c.next cycle).seen (c.journal cycle).entries := by
  rw [next_eq_of_journal, journal, growth]
  rcases hcompared : c.compared? cycle.source with _ | statements
  · obtain ⟨outcome, -, hcycle⟩ := runCycle_of_not_compared hcompared cycle.now cycle.timestamp
      (Journal.blank cycle.sink)
    rw [hcycle]
    exact .nothing
  · let advanced : Collector := { c with
      columns := (c.inquiry cycle.source).columns
      baselines := (c.baselines.advance (watchedMetrics statements) NormalStatement.identity
        statements).2 }
    rw [runCycle_of_compared hcompared]
    exact stopsAtRefusal_finish cycle.now cycle.timestamp _ advanced (c.inquiry cycle.source)
      cycle.sink

/-- Behind any cycles, whatever their instants are. -/
theorem hasShape_after {capacity : Nat} {lifetime : Duration} {c : Collector}
    (h : c.seen.HasShape capacity lifetime) (cycles : List (Cycle σ τ)) :
    (c.after cycles).seen.HasShape capacity lifetime := by
  induction cycles generalizing c with
  | nil => exact h
  | cons cycle cycles ih =>
    obtain ⟨count, hseen⟩ := (c.stopsAtRefusal_cycle cycle).drawn
    refine @ih (c.next cycle) ?_
    rw [← hseen]
    exact Sampling.hasShape_draw h _ cycle.now count _

/-- Only the texts up to the one that is refused have been handed over, and only their identities
become rate limited. -/
theorem exists_limits_of_refused {capacity : Nat} {lifetime : Duration} {keys : List Identity}
    {c : Collector} {cycle : Cycle σ τ} {event : TextEvent} {e : DeliveryError}
    (h : c.seen.HasShape capacity lifetime) (hlifetime : 0 < lifetime.nanoseconds)
    (hlength : keys.length ≤ capacity)
    (hcontained : ∀ k, (c.seen.contains cycle.now k).1 = true → k ∈ keys)
    (hentries : ∀ text result, (.text text, result) ∈ (c.journal cycle).entries →
      text.identity ∈ keys)
    (hrefused : (.text event, .error e) ∈ (c.journal cycle).entries) :
    ∃ events, (c.journal cycle).entries = textEntries events ++ [(.text event, .error e)] ∧
      (draw (eventContext c.settings cycle.timestamp) cycle.now (events.length + 1)
        (c.growth cycle.source) c.seen).1 = events ++ [event] ∧
      Sampling.Limits lifetime cycle.now ((events ++ [event]).map TextEvent.identity) c.seen
        (c.next cycle).seen := by
  obtain ⟨events, hhanded, hdraw⟩ := (c.stopsAtRefusal_cycle cycle).of_refused event e hrefused
  have hdrawn : (draw (eventContext c.settings cycle.timestamp) cycle.now (events.length + 1)
      (c.growth cycle.source) c.seen).1 = events ++ [event] := congrArg Prod.fst hdraw
  have hne : c.growth cycle.source ≠ [] := by
    -- an event has been drawn
    intro hnil
    rw [hnil, Sampling.draw_nil] at hdrawn
    exact List.concat_ne_nil _ _ hdrawn.symm
  have hkeys : ∀ text ∈ events ++ [event], text.identity ∈ keys := by
    rw [hhanded] at hentries
    rw [List.forall_mem_append, List.forall_mem_singleton]
    refine ⟨fun text htext => hentries text (.ok ()) (List.mem_append_left _ ?_),
      hentries event (.error e) List.mem_concat_self⟩
    exact List.mem_map.mpr ⟨text, htext, rfl⟩
  rw [← hdrawn] at hkeys
  have hlimits := Sampling.limits_draw h hlifetime hlength hcontained hne events.length hkeys
  rw [hdraw] at hlimits
  exact ⟨events, hhanded, hdrawn, hlimits⟩

/-- An interruption loses only what has been drawn before it. Let a set of seen identities have been
used in any way, and let there be room for the identities that are rate limited and for those that
come up. Whoever draws some events, gives up and starts over draws the events that a single pass
draws, and the set ends up the same. So if the sink of a cycle refuses a text, the identities of
this text and of the texts before it become rate limited for a lifetime, for every other identity
nothing changes, and no metrics are handed over. -/
theorem interruption_loses_only_drawn (capacity : Nat) (lifetime : Duration) (keys : List Identity)
    (hlifetime : 0 < lifetime.nanoseconds) (hlength : keys.length ≤ max capacity 1) :
    (∀ (calls : List Sampling.Call) (context : EventContext) (now : Instant) (count : Nat)
      (statements : List NormalStatement),
      let seen := (Sampling.run calls (.empty capacity lifetime)).2
      (∀ k, (seen.contains now k).1 = true → k ∈ keys) →
      (∀ s ∈ statements, s.identity ∈ keys) →
      drainAnew context now count statements seen = drain context now statements seen) ∧
    ∀ (c : Collector) (before : List (Cycle σ τ)) (cycle : Cycle σ τ) (event : TextEvent)
      (e : DeliveryError),
      c.seen = .empty capacity lifetime →
      let reached := c.after before
      let entries := (reached.journal cycle).entries
      (∀ k, (reached.seen.contains cycle.now k).1 = true → k ∈ keys) →
      (∀ text result, (.text text, result) ∈ entries → text.identity ∈ keys) →
      (.text event, .error e) ∈ entries →
      ∃ events, entries = textEntries events ++ [(.text event, .error e)] ∧
        (draw (eventContext reached.settings cycle.timestamp) cycle.now (events.length + 1)
          (reached.growth cycle.source) reached.seen).1 = events ++ [event] ∧
        Sampling.Limits (lifetime.min ExpiringSet.longestLifetime) cycle.now
          ((events ++ [event]).map TextEvent.identity) reached.seen (reached.next cycle).seen ∧
        ∀ metrics result, (.metrics metrics, result) ∉ entries := by
  have hempty : (.empty capacity lifetime : Sampling.Seen).HasShape (max capacity 1)
      (lifetime.min ExpiringSet.longestLifetime) := ExpiringSet.hasShape_empty capacity lifetime
  have hlasting := ExpiringSet.nanoseconds_min_longestLifetime_pos hlifetime
  constructor
  · intro calls context now count statements seen hcontained hidentities
    exact Sampling.drainAnew_eq_drain (Sampling.hasShape_run hempty calls) hlasting hlength
      hcontained hidentities context count
  · intro c before cycle event e hseen reached entries hcontained hentries hrefused
    obtain ⟨events, hhanded, hdrawn, hlimits⟩ := exists_limits_of_refused
      (hasShape_after (hseen ▸ hempty) before) hlasting hlength hcontained hentries hrefused
    have hhanded : entries = textEntries events ++ [(.text event, .error e)] := hhanded
    refine ⟨events, hhanded, hdrawn, hlimits, fun metrics result hmetrics => ?_⟩
    rw [hhanded] at hmetrics
    rcases Journal.of_mem_concat hmetrics with ⟨text, htext⟩ | hlast
    · cases htext
    · cases hlast

/-- A cycle that finds a row in the view and whose sink may have a fault. -/
def loggedCycle (calls : Int64) (fault : Option IoFault) : Cycle Unvarying EventLog :=
  ⟨0, 0.0, (calledCycle calls).source, .empty fault⟩

/-- The text of two more calls. -/
def calledText : TextEvent :=
  .ofStatement (eventContext plainCollector.settings 0.0) (calledStatement 2)

/-- A statement whose text is drawn is passed over when sampling starts over. With room for one
identity and a lifetime of ten seconds, the text that is refused is not due until they are over. -/
theorem interruption_loses_only_drawn_brokenPipe :
    (let call := Sampling.samplingAt 0
    (drainAnew call.context call.now 1 call.statements (.empty 1 (.ofWholeSeconds 10))).1 =
      [TextEvent.ofStatement call.context Sampling.sampledStatement]) ∧
    let reached := plainCollector.after [loggedCycle 1 none]
    let refused := loggedCycle 3 (some .brokenPipe)
    (reached.journal refused).entries =
        textEntries [] ++ [(.text calledText, .error (.writing .brokenPipe))] ∧
      (reached.seen.contains 0 calledIdentity).1 = false ∧
      ((reached.next refused).seen.contains 9999999999 calledIdentity).1 = true := by
  have hentries : ((plainCollector.after [loggedCycle 1 none]).journal
      (loggedCycle 3 (some .brokenPipe))).entries =
        textEntries [] ++ [(.text calledText, .error (.writing .brokenPipe))] := by
    have hcompared : (plainCollector.after [loggedCycle 1 none]).compared?
        (loggedCycle 3 (some .brokenPipe)).source = some [calledStatement 3] := rfl
    rw [journal, runCycle_of_compared hcompared, finish, sendEvents, sendTexts]
    set_option maxRecDepth 4000 in rfl
  refine ⟨?_, hentries, ?_⟩
  · obtain ⟨hanew, -⟩ := @interruption_loses_only_drawn Unvarying EventLog _ _ _ 1
      (.ofWholeSeconds 10) [Sampling.sampledStatement.identity] (by decide) (by decide)
    have hidentities : ∀ s ∈ (Sampling.samplingAt 0).statements,
        s.identity ∈ [Sampling.sampledStatement.identity] := by
      simp [Sampling.samplingAt]
    exact congrArg Prod.fst (hanew [] (Sampling.samplingAt 0).context 0 1 _
      (fun _ hcontained => absurd hcontained Bool.false_ne_true) hidentities)
  · obtain ⟨-, hrefusal⟩ := @interruption_loses_only_drawn Unvarying EventLog _ _ _ 1
      (.ofWholeSeconds 10) [calledIdentity] (by decide) (by decide)
    have hkeys : ∀ text result, (.text text, result) ∈
        textEntries [] ++ [(.text calledText, .error (.writing .brokenPipe))] →
          text.identity ∈ [calledIdentity] := by
      intro text result htext
      cases List.mem_singleton.mp htext
      exact List.mem_singleton_self calledIdentity
    obtain ⟨events, -, -, hlimits, -⟩ := hrefusal plainCollector [loggedCycle 1 none]
      (loggedCycle 3 (some .brokenPipe)) calledText (.writing .brokenPipe) rfl
      (fun _ hcontained => absurd hcontained Bool.false_ne_true) (hentries ▸ hkeys)
      (hentries ▸ List.mem_concat_self)
    have hlast : calledIdentity ∈ (events ++ [calledText]).map TextEvent.identity :=
      List.mem_map.mpr ⟨calledText, List.mem_concat_self, rfl⟩
    exact ⟨hlimits.eligible _ hlast, hlimits.limited _ hlast _ (by decide)⟩

end Collector

end QueryTelemetry
