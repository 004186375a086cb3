import QueryTelemetry.Delivery

/-!
# Attempts to write events

Events are written to a sink for bytes one after the other; each of them is tried, whatever became
of those before it. An `Attempt` is the record of one of them: its result, and the bytes that the
sink took meanwhile. Keeping this record has no influence on the sink (`write_recorded`).

An attempt leaves a first part of the line of its event, and the whole line if it succeeds
(`taken_of_mem_attempts`). A sink that never fails takes the whole line of each event
(`attempts_of_takesAll`).
-/

namespace QueryTelemetry

/-! ### Recording what a sink takes -/

/-- A sink for bytes with the bytes that it has taken. -/
structure Recorded (ω : Type) where
  sink : ω
  taken : List UInt8

namespace Recorded

variable {ω : Type} [ByteSink ω]

/-- Hands a byte to the sink and records it if it is taken. -/
def put (byte : UInt8) (r : Recorded ω) : Except IoFault Unit × Recorded ω :=
  match ByteSink.put byte r.sink with
  | (.ok (), sink) => (.ok (), ⟨sink, r.taken ++ [byte]⟩)
  | (.error fault, sink) => (.error fault, ⟨sink, r.taken⟩)

/-- Flushes the sink. -/
def flush (r : Recorded ω) : Except IoFault Unit × Recorded ω :=
  match ByteSink.flush r.sink with
  | (result, sink) => (result, ⟨sink, r.taken⟩)

instance : ByteSink (Recorded ω) := ⟨put, flush⟩

variable {byte : UInt8} {sink after : ω} {taken : List UInt8}

theorem put_of_ok (h : ByteSink.put byte sink = (.ok (), after)) :
    ByteSink.put byte (⟨sink, taken⟩ : Recorded ω) = (.ok (), ⟨after, taken ++ [byte]⟩) := by
  change Recorded.put byte _ = _
  rw [Recorded.put, h]

theorem put_of_error {fault : IoFault} (h : ByteSink.put byte sink = (.error fault, after)) :
    ByteSink.put byte (⟨sink, taken⟩ : Recorded ω) = (.error fault, ⟨after, taken⟩) := by
  change Recorded.put byte _ = _
  rw [Recorded.put, h]

theorem flush_mk :
    ByteSink.flush (⟨sink, taken⟩ : Recorded ω) =
      ((ByteSink.flush sink).1, ⟨(ByteSink.flush sink).2, taken⟩) := rfl

end Recorded

namespace LineSink

variable {ω : Type} [ByteSink ω]

/-- The bytes of an event with the line break. -/
def line (payload : Payload) : List UInt8 := document payload ++ [lineBreak]

/-- Bytes are recorded as far as they are taken. -/
theorem putAll_recorded (bytes : List UInt8) (sink : ω) (taken : List UInt8) :
    ∃ front, front <+: bytes ∧
      ByteSink.putAll bytes (⟨sink, taken⟩ : Recorded ω) =
        ((ByteSink.putAll bytes sink).1, ⟨(ByteSink.putAll bytes sink).2, taken ++ front⟩) ∧
      ((ByteSink.putAll bytes sink).1 = .ok () → front = bytes) := by
  induction bytes generalizing sink taken with
  | nil => exact ⟨[], List.prefix_refl [], by rw [List.append_nil]; rfl, fun _ => rfl⟩
  | cons byte bytes ih =>
    rcases hput : ByteSink.put byte sink with ⟨fault | ⟨⟩, after⟩
    · refine ⟨[], List.nil_prefix, ?_, ?_⟩
      · rw [ByteSink.putAll, Recorded.put_of_error hput, ByteSink.putAll, hput, List.append_nil]
      · rw [ByteSink.putAll, hput]
        intro h
        cases h
    · obtain ⟨front, hfront, hrest, hok⟩ := ih after (taken ++ [byte])
      have hputAll : ByteSink.putAll (byte :: bytes) sink = ByteSink.putAll bytes after := by
        rw [ByteSink.putAll, hput]
      refine ⟨byte :: front, List.cons_prefix_cons.mpr ⟨rfl, hfront⟩, ?_, ?_⟩
      · rw [ByteSink.putAll, Recorded.put_of_ok hput, hputAll]
        change ByteSink.putAll bytes _ = _
        rw [hrest, List.append_assoc, List.singleton_append]
      · rw [hputAll]
        intro h
        rw [hok h]

/-- A line is recorded as far as it is taken, all of it if the event is delivered. -/
theorem write_recorded (payload : Payload) (sink : ω) (taken : List UInt8) :
    ∃ front, front <+: line payload ∧
      write payload (⟨sink, taken⟩ : Recorded ω) =
        ((write payload sink).1, ⟨(write payload sink).2, taken ++ front⟩) ∧
      ((write payload sink).1 = .ok () → front = line payload) := by
  obtain ⟨front, hfront, hdocument, hall⟩ := putAll_recorded (document payload) sink taken
  rcases hput : ByteSink.putAll (document payload) sink with ⟨fault | ⟨⟩, within⟩
  · rw [hput] at hdocument
    have hwrite : write payload sink = (.error (.serializing fault), within) := by
      rw [write, hput]
    refine ⟨front, hfront.trans (List.prefix_append _ _), ?_, ?_⟩
    · rw [write, hdocument, hwrite]
    · rw [hwrite]
      intro h
      cases h
  · rw [hput] at hdocument
    obtain rfl : front = document payload := hall (by rw [hput])
    rcases hbreak : ByteSink.put lineBreak within with ⟨fault | ⟨⟩, after⟩
    · have hwrite : write payload sink = (.error (.writing fault), after) := by
        simp only [write, hput, hbreak]
      refine ⟨document payload, List.prefix_append _ _, ?_, ?_⟩
      · rw [hwrite]
        simp only [write, hdocument, Recorded.put_of_error hbreak]
      · rw [hwrite]
        intro h
        cases h
    · refine ⟨line payload, List.prefix_refl _, ?_, fun _ => rfl⟩
      rcases hflush : ByteSink.flush after with ⟨fault | ⟨⟩, final⟩ <;>
        simp only [write, hput, hbreak, hflush, hdocument, Recorded.put_of_ok hbreak,
          Recorded.flush_mk, line, List.append_assoc]

/-! ### Attempts -/

/-- An attempt to write an event. -/
structure Attempt where
  payload : Payload
  result : Except DeliveryError Unit
  /-- The bytes that the sink took. -/
  taken : List UInt8

/-- The attempts to write events one after the other. -/
def attempts : List Payload → ω → List Attempt
  | [], _ => []
  | payload :: payloads, sink =>
    match write payload (⟨sink, []⟩ : Recorded ω) with
    | (result, ⟨sink, taken⟩) => ⟨payload, result, taken⟩ :: attempts payloads sink

/-- What attempts leave in the output of the sink. -/
def takenBytes (tried : List Attempt) : List UInt8 := tried.flatMap Attempt.taken

/-- An attempt has the result that writing the event to the sink has, and the next attempt finds the
sink that this leaves. -/
theorem exists_attempts_cons (payload : Payload) (payloads : List Payload) (sink : ω) :
    ∃ taken, taken <+: line payload ∧
      attempts (payload :: payloads) sink =
        ⟨payload, (write payload sink).1, taken⟩ :: attempts payloads (write payload sink).2 ∧
      ((write payload sink).1 = .ok () → taken = line payload) := by
  obtain ⟨front, hfront, hwrite, hok⟩ := write_recorded payload sink []
  refine ⟨front, hfront, ?_, hok⟩
  rw [attempts, hwrite]
  rfl

/-- An attempt leaves a first part of its line, all of it if the event is delivered. -/
theorem taken_of_mem_attempts {payloads : List Payload} {sink : ω} {a : Attempt}
    (h : a ∈ attempts payloads sink) :
    a.taken <+: line a.payload ∧ (a.result = .ok () → a.taken = line a.payload) := by
  induction payloads generalizing sink with
  | nil => cases h
  | cons payload payloads ih =>
    obtain ⟨taken, htaken, hcons, hok⟩ := exists_attempts_cons payload payloads sink
    generalize write payload sink = outcome at hcons hok
    rw [hcons] at h
    rcases List.mem_cons.mp h with rfl | h
    · exact ⟨htaken, hok⟩
    · exact ih h

/-- Each event is tried. -/
theorem map_payload_attempts (payloads : List Payload) (sink : ω) :
    (attempts payloads sink).map Attempt.payload = payloads := by
  induction payloads generalizing sink with
  | nil => rfl
  | cons payload payloads ih =>
    obtain ⟨taken, -, hcons, -⟩ := exists_attempts_cons payload payloads sink
    rw [hcons, List.map_cons, ih]

/-! ### Sinks that never fail -/

/-- While it is in one of these states, a sink takes whatever is put, and stays in them. -/
structure TakesAll (P : ω → Prop) : Prop where
  put : ∀ byte sink, P sink → ∃ after, ByteSink.put byte sink = (.ok (), after) ∧ P after
  flush : ∀ sink, P sink → ∃ after, ByteSink.flush sink = (.ok (), after) ∧ P after

variable {P : ω → Prop} {sink : ω}

theorem putAll_of_takesAll (h : TakesAll P) (hsink : P sink) (bytes : List UInt8) :
    ∃ after, ByteSink.putAll bytes sink = (.ok (), after) ∧ P after := by
  induction bytes generalizing sink with
  | nil => exact ⟨sink, rfl, hsink⟩
  | cons byte bytes ih =>
    obtain ⟨next, hput, hnext⟩ := h.put byte sink hsink
    obtain ⟨after, hrest, hafter⟩ := ih hnext
    refine ⟨after, ?_, hafter⟩
    rw [ByteSink.putAll, hput]
    exact hrest

/-- An event is delivered to a sink that takes everything. -/
theorem write_of_takesAll (h : TakesAll P) (hsink : P sink) (payload : Payload) :
    ∃ after, write payload sink = (.ok (), after) ∧ P after := by
  obtain ⟨within, hdocument, hwithin⟩ := putAll_of_takesAll h hsink (document payload)
  obtain ⟨next, hbreak, hnext⟩ := h.put lineBreak within hwithin
  obtain ⟨after, hflush, hafter⟩ := h.flush next hnext
  refine ⟨after, ?_, hafter⟩
  simp only [write, hdocument, hbreak, hflush]

/-- A sink that takes everything takes the line of each event. -/
theorem attempts_of_takesAll (h : TakesAll P) (hsink : P sink) (payloads : List Payload) :
    attempts payloads sink = payloads.map fun payload => ⟨payload, .ok (), line payload⟩ := by
  induction payloads generalizing sink with
  | nil => rfl
  | cons payload payloads ih =>
    obtain ⟨after, hwrite, hafter⟩ := write_of_takesAll h hsink payload
    obtain ⟨taken, -, hcons, hok⟩ := exists_attempts_cons payload payloads sink
    rw [hwrite] at hcons hok
    rw [hcons, hok rfl, ih hafter, List.map_cons]

end LineSink

end QueryTelemetry
