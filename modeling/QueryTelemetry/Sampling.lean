import QueryTelemetry.Event
import QueryTelemetry.ExpiringSet

/-!
# Which full texts are sent

The full text of a statement is sent at most once in a lifetime. The identities that have been
sent are kept in an `ExpiringSet`, and each event is decided on only when it is drawn: an event
that nobody draws leaves no trace.
-/

namespace QueryTelemetry

namespace Sampling

/-- The identities whose text has been sent. -/
abbrev Seen := ExpiringSet Identity

/-- Draws the next event: the text of the first statement that has not been seen, and the statements
after it. The statements before it are passed over for good. -/
def next (context : EventContext) (now : Instant) :
    List NormalStatement → Seen → Option (TextEvent × List NormalStatement) × Seen
  | [], seen => (none, seen)
  | s :: rest, seen =>
    match seen.insertIfAbsent now s.identity with
    | (true, seen) => (some (TextEvent.ofStatement context s, rest), seen)
    | (false, seen) => next context now rest seen

/-- Drawing an event uses up a statement. -/
theorem length_lt_of_next {context : EventContext} {now : Instant}
    {statements rest : List NormalStatement} {seen seen' : Seen} {event : TextEvent}
    (h : next context now statements seen = (some (event, rest), seen')) :
    rest.length < statements.length := by
  induction statements generalizing seen with
  | nil => simp [next] at h
  | cons s more ih =>
    simp only [next] at h
    split at h
    · simp only [Prod.mk.injEq, Option.some.injEq] at h
      simp [← h.1.2]
    · have := ih h
      simp only [List.length_cons]
      omega

/-- Draws at most `count` events. -/
def draw (context : EventContext) (now : Instant) :
    (count : Nat) → List NormalStatement → Seen → List TextEvent × Seen
  | 0, _, seen => ([], seen)
  | count + 1, statements, seen =>
    match next context now statements seen with
    | (none, seen) => ([], seen)
    | (some (event, rest), seen) =>
      let (events, seen) := draw context now count rest seen
      (event :: events, seen)

/-- Draws all events. -/
def drain (context : EventContext) (now : Instant) (statements : List NormalStatement)
    (seen : Seen) : List TextEvent × Seen :=
  draw context now (statements.length + 1) statements seen

end Sampling

end QueryTelemetry
