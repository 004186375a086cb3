import QueryTelemetry.Proofs.ExpiringSet.Admission
import QueryTelemetry.Proofs.Sampling.History

/-!
# Sampling that is interrupted

Whoever stops drawing events can start over at the same instant with the first statement: those that
have been drawn are members by then and are passed over, and all that was still to come comes. So
what is drawn before and after an interruption is what is drawn without it
(`drainAnew_eq_drain`). This is for sets with room for all identities, in whatever state the calls
before have left them, and these may have come at instants in any order.

Drawing events does no more to the set than to put their identities in (`admits_draw`). So these
become rate limited, and no other identity notices (`limits_draw`).
-/

namespace QueryTelemetry

namespace Sampling

variable {context : EventContext} {now : Instant} {statements : List NormalStatement}
  {seen : Seen} {keys : List Identity} {capacity : Nat} {lifetime : Duration}

/-! ### What drawing does to the set -/

/-- Drawing events begins with a purge. -/
theorem next_purge (hne : statements ≠ []) :
    next context now statements (seen.purge now) = next context now statements seen := by
  cases statements with
  | nil => exact absurd rfl hne
  | cons s rest => rw [next, next, ExpiringSet.insertIfAbsent_purge]

theorem draw_purge (hne : statements ≠ []) (count : Nat) :
    draw context now (count + 1) statements (seen.purge now) =
      draw context now (count + 1) statements seen := by
  rw [draw, draw, next_purge hne]

/-- Drawing puts the identities of the events in, one after the other. -/
theorem admits_draw (h : seen.IsSettled now keys) (count : Nat)
    (hkeys : ∀ event ∈ (draw context now count statements seen).1, event.identity ∈ keys) :
    ExpiringSet.Admits now ((draw context now count statements seen).1.map TextEvent.identity) seen
      (draw context now count statements seen).2 := by
  induction statements generalizing count seen with
  | nil =>
    rw [draw_nil]
    exact .nil seen
  | cons s rest ih =>
    cases count with
    | zero => exact .nil seen
    | succ count =>
      cases hholds : seen.holds s.identity with
      | true =>
        rw [draw_cons_of_present (h.insertIfAbsent_of_holds hholds)] at hkeys ⊢
        exact ih h (count + 1) hkeys
      | false =>
        have habsent : (seen.insertIfAbsent now s.identity).1 = true := by
          rw [ExpiringSet.insertIfAbsent_fst, ExpiringSet.contains, h.purged, hholds]
          rfl
        -- the text is drawn, and so there is room for its identity
        have hmem : s.identity ∈ keys := by
          rw [draw_cons_of_absent (Prod.ext habsent rfl)] at hkeys
          exact hkeys _ List.mem_cons_self
        rw [draw_cons_of_absent (h.insertIfAbsent_of_not_holds hmem hholds)] at hkeys ⊢
        rw [List.forall_mem_cons] at hkeys
        exact .cons hholds (ih (h.put hmem) count hkeys.2)

/-- Drawing goes on behind the next event. -/
theorem draw_of_next {event : TextEvent} {rest : List NormalStatement} {seen' : Seen}
    (h : next context now statements seen = (some (event, rest), seen')) (count : Nat) :
    draw context now (count + 1) statements seen =
      (event :: (draw context now count rest seen').1, (draw context now count rest seen').2) := by
  rw [draw, h]

theorem drain_of_next {event : TextEvent} {rest : List NormalStatement} {seen' : Seen}
    (h : next context now statements seen = (some (event, rest), seen')) :
    drain context now statements seen =
      (event :: (drain context now rest seen').1, (drain context now rest seen').2) := by
  rw [drain, draw_of_next h, drain, draw_eq_draw (length_lt_of_next h) (Nat.lt_succ_self _)]

theorem drain_of_next_eq_none {seen' : Seen}
    (h : next context now statements seen = (none, seen')) :
    drain context now statements seen = ([], seen') := by
  rw [drain, draw, h]

/-- The events are the texts of statements. -/
theorem exists_of_mem_draw {count : Nat} {event : TextEvent}
    (h : event ∈ (draw context now count statements seen).1) :
    ∃ s ∈ statements, event = TextEvent.ofStatement context s := by
  induction statements generalizing count seen with
  | nil =>
    rw [draw_nil] at h
    cases h
  | cons s rest ih =>
    cases count with
    | zero => cases h
    | succ count =>
      cases hinsert : seen.insertIfAbsent now s.identity with
      | mk absent seen' =>
        cases absent with
        | true =>
          rw [draw_cons_of_absent hinsert] at h
          rcases List.mem_cons.mp h with rfl | h
          · exact ⟨s, List.mem_cons_self, rfl⟩
          · obtain ⟨s', hs', hevent⟩ := ih h
            exact ⟨s', List.mem_cons_of_mem s hs', hevent⟩
        | false =>
          rw [draw_cons_of_present hinsert] at h
          obtain ⟨s', hs', hevent⟩ := ih h
          exact ⟨s', List.mem_cons_of_mem s hs', hevent⟩

/-- With room for all identities of the statements there is room for those of the events. -/
theorem admits_draw_of_statements (h : seen.IsSettled now keys)
    (hidentities : ∀ s ∈ statements, s.identity ∈ keys) (context : EventContext) (count : Nat) :
    (draw context now count statements seen).2.IsSettled now keys ∧
      ∀ k, seen.holds k = true → (draw context now count statements seen).2.holds k = true := by
  have hkeys : ∀ event ∈ (draw context now count statements seen).1, event.identity ∈ keys := by
    intro event hevent
    obtain ⟨s, hs, rfl⟩ := exists_of_mem_draw hevent
    exact hidentities s hs
  have hadmits := admits_draw h count hkeys
  refine ⟨hadmits.isSettled h fun k hk => ?_, fun k hk => hadmits.holds_of_holds hk⟩
  obtain ⟨event, hevent, rfl⟩ := List.mem_map.mp hk
  exact hkeys event hevent

/-! ### Starting over -/

/-- Draws at most `count` events, gives up, and then draws all events from the same statements. -/
def drainAnew (context : EventContext) (now : Instant) (count : Nat)
    (statements : List NormalStatement) (seen : Seen) : List TextEvent × Seen :=
  let (events, seen) := draw context now count statements seen
  let (more, seen) := drain context now statements seen
  (events ++ more, seen)

theorem drainAnew_eq (context : EventContext) (now : Instant) (count : Nat)
    (statements : List NormalStatement) (seen : Seen) :
    drainAnew context now count statements seen =
      ((draw context now count statements seen).1 ++
          (drain context now statements (draw context now count statements seen).2).1,
        (drain context now statements (draw context now count statements seen).2).2) := rfl

/-- From a settled set, what is drawn before and after an interruption is what is drawn without
it. -/
theorem drainAnew_of_isSettled (h : seen.IsSettled now keys)
    (hidentities : ∀ s ∈ statements, s.identity ∈ keys) (context : EventContext) (count : Nat) :
    drainAnew context now count statements seen = drain context now statements seen := by
  induction statements generalizing count seen with
  | nil => rw [drainAnew_eq, draw_nil, List.nil_append]
  | cons s rest ih =>
    rw [List.forall_mem_cons] at hidentities
    cases count with
    | zero => rfl
    | succ count =>
      cases hholds : seen.holds s.identity with
      | true =>
        -- the statement is passed over before and after the interruption
        have hpresent := h.insertIfAbsent_of_holds hholds
        obtain ⟨hsettled, hmono⟩ := admits_draw_of_statements h hidentities.2 context (count + 1)
        have hagain := hsettled.insertIfAbsent_of_holds (hmono _ hholds)
        rw [drainAnew_eq, draw_cons_of_present hpresent, drain_cons_of_present hpresent,
          drain_cons_of_present hagain]
        exact ih h hidentities.2 (count + 1)
      | false =>
        -- the statement is passed over after the interruption, since its text has been drawn
        have habsent := h.insertIfAbsent_of_not_holds hidentities.1 hholds
        have hput := h.put hidentities.1
        obtain ⟨hsettled, hmono⟩ := admits_draw_of_statements hput hidentities.2 context count
        have hheld : (seen.put (now + seen.lifetime.nanoseconds) s.identity).holds s.identity =
            true := by
          rw [ExpiringSet.holds_put, decide_eq_true rfl, Bool.true_or]
        have hagain := hsettled.insertIfAbsent_of_holds (hmono _ hheld)
        rw [drainAnew_eq, draw_cons_of_absent habsent, drain_cons_of_absent habsent,
          drain_cons_of_present hagain, ← ih hput hidentities.2 count]
        rfl

/-- From any set, if there is room for its members and for the identities of the statements. -/
theorem drainAnew_eq_drain (h : seen.HasShape capacity lifetime)
    (hlifetime : 0 < lifetime.nanoseconds) (hlength : keys.length ≤ capacity)
    (hcontained : ∀ k, (seen.contains now k).1 = true → k ∈ keys)
    (hidentities : ∀ s ∈ statements, s.identity ∈ keys) (context : EventContext) (count : Nat) :
    drainAnew context now count statements seen = drain context now statements seen := by
  cases count with
  | zero => rfl
  | succ count =>
    by_cases hne : statements = []
    · rw [drainAnew_eq, hne, draw_nil, List.nil_append]
    · have hsettled := h.isSettled_purge hlifetime hlength hcontained
      have hpurged := drainAnew_of_isSettled hsettled hidentities context (count + 1)
      rw [drainAnew_eq, draw_purge hne] at hpurged
      rw [drainAnew_eq, hpurged, drain, drain, draw_purge hne]

/-! ### Rate limits -/

/-- Some identities become rate limited at an instant, each for a lifetime. For every other identity
nothing changes, then or later. -/
structure Limits (lifetime : Duration) (now : Instant) (identities : List Identity)
    (seen seen' : Seen) : Prop where
  eligible : ∀ k ∈ identities, (seen.contains now k).1 = false
  limited : ∀ k ∈ identities, ∀ later, later < now + (lifetime.nanoseconds : Int) →
    (seen'.contains later k).1 = true
  unchanged : ∀ k, k ∉ identities → ∀ later, now ≤ later →
    (seen'.contains later k).1 = (seen.contains later k).1

/-- Drawing events limits their identities. -/
theorem limits_draw (h : seen.HasShape capacity lifetime) (hlifetime : 0 < lifetime.nanoseconds)
    (hlength : keys.length ≤ capacity) (hcontained : ∀ k, (seen.contains now k).1 = true → k ∈ keys)
    (hne : statements ≠ []) (count : Nat)
    (hkeys : ∀ event ∈ (draw context now (count + 1) statements seen).1, event.identity ∈ keys) :
    Limits lifetime now
      ((draw context now (count + 1) statements seen).1.map TextEvent.identity) seen
      (draw context now (count + 1) statements seen).2 := by
  rw [← draw_purge hne] at hkeys ⊢
  have hadmits := admits_draw (h.isSettled_purge hlifetime hlength hcontained) (count + 1) hkeys
  refine ⟨fun k hk => (hadmits.contains_of_mem hk).1, fun k hk => ?_,
    fun k hk later hle => hadmits.contains_of_not_mem hk hle⟩
  rw [← h.lifetime_eq]
  exact (hadmits.contains_of_mem hk).2

/-! ### States of a sampler -/

theorem hasShape_next (h : seen.HasShape capacity lifetime) (context : EventContext) (now : Instant)
    (statements : List NormalStatement) :
    (next context now statements seen).2.HasShape capacity lifetime := by
  induction statements generalizing seen with
  | nil => exact h
  | cons s rest ih =>
    have hinsert := h.insertIfAbsent now s.identity
    rw [next]
    split
    · rename_i heq
      rw [heq] at hinsert
      exact hinsert
    · rename_i heq
      rw [heq] at hinsert
      exact ih hinsert

theorem hasShape_draw (h : seen.HasShape capacity lifetime) (context : EventContext) (now : Instant)
    (count : Nat) (statements : List NormalStatement) :
    (draw context now count statements seen).2.HasShape capacity lifetime := by
  induction count generalizing seen statements with
  | zero => exact h
  | succ count ih =>
    have hnext := hasShape_next h context now statements
    rw [draw]
    split
    · rename_i heq
      rw [heq] at hnext
      exact hnext
    · rename_i heq
      rw [heq] at hnext
      exact ih hnext _

/-- Whatever calls there have been, at whatever instants. -/
theorem hasShape_run (h : seen.HasShape capacity lifetime) (calls : List Call) :
    (run calls seen).2.HasShape capacity lifetime := by
  induction calls generalizing seen with
  | nil => exact h
  | cons call calls ih =>
    have hcall : (call.draw seen).2.HasShape capacity lifetime := by
      rw [Call.draw]
      split
      · exact hasShape_draw h _ _ _ _
      · exact hasShape_draw h _ _ _ _
    exact ih hcall

end Sampling

end QueryTelemetry
