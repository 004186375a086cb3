import QueryTelemetry.Proofs.Delivery.TornLines

/-!
# Sinks that run out of room

A sink with room for a number of bytes takes that many, whatever they belong to, and fails at each
byte after them. What becomes of an event follows from where in the output the sink is full: the
event is delivered if its line ends before that place, its document fails if the place is within the
document or before it, and only its line break fails if the place is right behind the document
(`results_of_hasRoom`).
-/

namespace QueryTelemetry

namespace LineSink

variable {ω : Type} [ByteSink ω]

/-- In one of these states a sink has room for so many bytes. It takes a byte as long as there is
room, and fails at each byte otherwise. A flush succeeds. Bytes are put one at a time, so a longer
piece may be cut anywhere. -/
structure HasRoom (P : Nat → ω → Prop) : Prop where
  put_of_succ : ∀ byte room sink, P (room + 1) sink →
    ∃ after, ByteSink.put byte sink = (.ok (), after) ∧ P room after
  put_of_zero : ∀ byte sink, P 0 sink →
    ∃ fault after, ByteSink.put byte sink = (.error fault, after) ∧ P 0 after
  flush : ∀ room sink, P room sink →
    ∃ after, ByteSink.flush sink = (.ok (), after) ∧ P room after

variable {P : Nat → ω → Prop} {room : Nat} {sink : ω}

/-- As many bytes are taken as there is room for, and the sink fails if that is not all of them. -/
theorem putAll_of_hasRoom (h : HasRoom P) (hsink : P room sink) (bytes taken : List UInt8) :
    ∃ result after, P (room - bytes.length) after ∧
      ByteSink.putAll bytes (⟨sink, taken⟩ : Recorded ω) =
        (result, ⟨after, taken ++ bytes.take room⟩) ∧
      (result = .ok () ↔ bytes.length ≤ room) := by
  induction bytes generalizing room sink taken with
  | nil => exact ⟨.ok (), sink, hsink, by rw [List.take_nil, List.append_nil]; rfl, by simp⟩
  | cons byte bytes ih =>
    cases room with
    | zero =>
      obtain ⟨fault, after, hput, hafter⟩ := h.put_of_zero byte sink hsink
      refine ⟨.error fault, after, by rwa [Nat.zero_sub], ?_, by simp⟩
      rw [ByteSink.putAll, Recorded.put_of_error hput, List.take_zero, List.append_nil]
    | succ room =>
      obtain ⟨next, hput, hnext⟩ := h.put_of_succ byte room sink hsink
      obtain ⟨result, after, hafter, hrest, hok⟩ := ih hnext (taken ++ [byte])
      refine ⟨result, after, ?_, ?_, ?_⟩
      · rwa [List.length_cons, Nat.add_sub_add_right]
      · rw [ByteSink.putAll, Recorded.put_of_ok hput]
        change ByteSink.putAll bytes _ = _
        rw [hrest, List.take_succ_cons, List.append_assoc, List.singleton_append]
      · rw [hok, List.length_cons, Nat.add_le_add_iff_right]

/-! ### One event -/

/-- What becomes of an event if there is room for so many bytes when it is tried. -/
structure EndsByRoom (room : Nat) (a : Attempt) : Prop where
  taken_eq : a.taken = (line a.payload).take room
  ok_iff : a.result = .ok () ↔ (line a.payload).length ≤ room
  serializing_iff : (∃ fault, a.result = .error (.serializing fault)) ↔
    room < (document a.payload).length
  writing_iff : (∃ fault, a.result = .error (.writing fault)) ↔
    room = (document a.payload).length

theorem length_line (payload : Payload) :
    (line payload).length = (document payload).length + 1 := by
  rw [line, List.length_append, List.length_singleton]

theorem document_length_pos (payload : Payload) : 0 < (document payload).length := by
  obtain ⟨more, hdocument⟩ := exists_document_eq payload
  rw [hdocument]
  exact Nat.zero_lt_succ _

/-- The sink is full within the document or before it. -/
theorem endsByRoom_serializing {payload : Payload} (h : room < (document payload).length)
    (fault : IoFault) :
    EndsByRoom room ⟨payload, .error (.serializing fault), (document payload).take room⟩ := by
  refine ⟨?_, ?_, iff_of_true ⟨fault, rfl⟩ h, ?_⟩
  · simp only [line, List.take_append_of_le_length (Nat.le_of_lt h)]
  · simp only [length_line, reduceCtorEq, false_iff]
    omega
  · simp only [Except.error.injEq, reduceCtorEq, exists_false, false_iff]
    omega

/-- The sink is full right behind the document. -/
theorem endsByRoom_writing (payload : Payload) (fault : IoFault) :
    EndsByRoom (document payload).length
      ⟨payload, .error (.writing fault), document payload⟩ := by
  refine ⟨?_, ?_, ?_, iff_of_true ⟨fault, rfl⟩ rfl⟩
  · simp only [line, List.take_left]
  · simp only [length_line, reduceCtorEq, false_iff]
    omega
  · simp only [Except.error.injEq, reduceCtorEq, exists_false, false_iff]
    omega

/-- There is room for the whole line. -/
theorem endsByRoom_ok {payload : Payload} (h : (line payload).length ≤ room) :
    EndsByRoom room ⟨payload, .ok (), line payload⟩ := by
  have hdocument := length_line payload
  refine ⟨(List.take_of_length_le h).symm, iff_of_true rfl h, ?_, ?_⟩
  · simp only [reduceCtorEq, exists_false, false_iff]
    omega
  · simp only [reduceCtorEq, exists_false, false_iff]
    omega

/-- The document goes first. If all of it has been taken, there is room for the line break or there
is not. -/
theorem write_of_hasRoom (h : HasRoom P) (hsink : P room sink) (payload : Payload) :
    ∃ result after taken, P (room - (line payload).length) after ∧
      write payload (⟨sink, []⟩ : Recorded ω) = (result, ⟨after, taken⟩) ∧
      EndsByRoom room ⟨payload, result, taken⟩ := by
  obtain ⟨result, within, hwithin, hdocument, hok⟩ :=
    putAll_of_hasRoom h hsink (document payload) []
  rw [List.nil_append] at hdocument
  rcases result with fault | ⟨⟩
  · have hshort : room < (document payload).length := Nat.not_le.mp (by simpa using hok)
    have hfull : room - (line payload).length = room - (document payload).length := by
      rw [length_line]
      omega
    rw [hfull]
    refine ⟨_, within, _, hwithin, ?_, endsByRoom_serializing hshort fault⟩
    rw [write, hdocument]
  have hfits : (document payload).length ≤ room := hok.mp rfl
  obtain ⟨left, rfl⟩ := Nat.exists_eq_add_of_le hfits
  rw [List.take_of_length_le hfits] at hdocument
  rw [Nat.add_sub_cancel_left] at hwithin
  rw [length_line, Nat.add_sub_add_left]
  rcases left with _ | left
  · obtain ⟨fault, after, hbreak, hafter⟩ := h.put_of_zero lineBreak within hwithin
    rw [Nat.add_zero]
    refine ⟨_, after, _, hafter, ?_, endsByRoom_writing payload fault⟩
    simp only [write, hdocument, Recorded.put_of_error hbreak]
  · obtain ⟨next, hbreak, hnext⟩ := h.put_of_succ lineBreak left within hwithin
    obtain ⟨after, hflush, hafter⟩ := h.flush left next hnext
    refine ⟨_, after, _, hafter, ?_, endsByRoom_ok (by rw [length_line]; omega)⟩
    simp only [write, hdocument, Recorded.put_of_ok hbreak, Recorded.flush_mk, hflush, line]

/-! ### Events one after the other -/

/-- How many bytes the lines of some attempts have. -/
def lineBytes (tried : List Attempt) : Nat := ((tried.map Attempt.payload).flatMap line).length

theorem lineBytes_cons (a : Attempt) (tried : List Attempt) :
    lineBytes (a :: tried) = (line a.payload).length + lineBytes tried := by
  rw [lineBytes, List.map_cons, List.flatMap_cons, List.length_append, lineBytes]

theorem lineBytes_append (before after : List Attempt) :
    lineBytes (before ++ after) = lineBytes before + lineBytes after := by
  rw [lineBytes, List.map_append, List.flatMap_append, List.length_append, lineBytes, lineBytes]

/-- Each event finds the room that the lines before it have left. -/
theorem attempts_of_hasRoom (h : HasRoom P) (hsink : P room sink) (payloads : List Payload) :
    takenBytes (attempts payloads sink) = (payloads.flatMap line).take room ∧
      ∀ before a after, attempts payloads sink = before ++ a :: after →
        EndsByRoom (room - lineBytes before) a := by
  induction payloads generalizing room sink with
  | nil =>
    refine ⟨by rw [List.flatMap_nil, List.take_nil]; rfl, fun before a after heq => ?_⟩
    simp [attempts] at heq
  | cons payload payloads ih =>
    obtain ⟨result, next, taken, hnext, hwrite, hends⟩ := write_of_hasRoom h hsink payload
    obtain ⟨htaken, hlater⟩ := ih hnext
    have hattempts : attempts (payload :: payloads) sink =
        ⟨payload, result, taken⟩ :: attempts payloads next := by
      rw [attempts, hwrite]
    refine ⟨?_, fun before a after heq => ?_⟩
    · rw [hattempts, takenBytes, List.flatMap_cons, ← takenBytes, htaken, hends.taken_eq,
        List.flatMap_cons, List.take_append]
    · rw [hattempts] at heq
      rcases before with _ | ⟨first, before⟩
      · obtain ⟨rfl, -⟩ := List.cons.inj heq
        exact hends
      · obtain ⟨rfl, hrest⟩ := List.cons.inj heq
        rw [lineBytes_cons, ← Nat.sub_sub]
        exact hlater before a after hrest

/-- **Full sinks.** A sink with room for a number of bytes takes that many of the lines of all
events, and each event is tried. It is delivered exactly if its line and those before it have room;
its document fails exactly if the sink is full before the end of the document; and its line break
fails exactly if the sink is full right behind the document. The last happens to one event at most:
those before it are delivered, and the documents of those behind it fail. -/
theorem results_of_hasRoom {P : Nat → ω → Prop} (h : HasRoom P) {room : Nat} {sink : ω}
    (hsink : P room sink) (payloads : List Payload) :
    takenBytes (attempts payloads sink) = (payloads.flatMap line).take room ∧
      (attempts payloads sink).map Attempt.payload = payloads ∧
      ∀ before a after, attempts payloads sink = before ++ a :: after →
        let start := ((before.map Attempt.payload).flatMap line).length
        (a.result = .ok () ↔ start + (line a.payload).length ≤ room) ∧
        ((∃ fault, a.result = .error (.serializing fault)) ↔
          room < start + (document a.payload).length) ∧
        ((∃ fault, a.result = .error (.writing fault)) ↔
          room = start + (document a.payload).length) ∧
        ((∃ fault, a.result = .error (.writing fault)) →
          (∀ b ∈ before, b.result = .ok ()) ∧
            ∀ b ∈ after, ∃ fault, b.result = .error (.serializing fault)) := by
  obtain ⟨htaken, hends⟩ := attempts_of_hasRoom h hsink payloads
  refine ⟨htaken, map_payload_attempts payloads sink, fun before a after heq => ?_⟩
  intro start
  have ha := hends before a after heq
  have hstart : lineBytes before = start := rfl
  have hpos := document_length_pos a.payload
  have hline := length_line a.payload
  rw [hstart] at ha
  have hwriting : (∃ fault, a.result = .error (.writing fault)) ↔
      room = start + (document a.payload).length := by
    rw [ha.writing_iff]
    omega
  refine ⟨?_, ?_, hwriting, fun hfault => ?_⟩
  · rw [ha.ok_iff]
    omega
  · rw [ha.serializing_iff]
    omega
  · have hroom := hwriting.mp hfault
    refine ⟨fun b hb => ?_, fun b hb => ?_⟩
    · -- the line of an event before ends before this one begins
      obtain ⟨front, back, rfl⟩ := List.append_of_mem hb
      rw [List.append_assoc, List.cons_append] at heq
      rw [(hends front b _ heq).ok_iff]
      have hsum := lineBytes_append front (b :: back)
      rw [lineBytes_cons, hstart] at hsum
      omega
    · -- the document of an event behind begins where the sink is full already
      obtain ⟨front, back, rfl⟩ := List.append_of_mem hb
      rw [← List.cons_append, ← List.append_assoc] at heq
      rw [(hends _ b back heq).serializing_iff, lineBytes_append, lineBytes_cons, hstart]
      have hnonempty := document_length_pos b.payload
      omega

theorem hasRoom_byteLog :
    HasRoom (fun room (log : ByteLog) => log.room = some room ∧ log.failsFlush = false) := by
  refine ⟨?_, ?_, ?_⟩
  · rintro byte room ⟨taken, _, _, fault⟩ ⟨rfl, rfl⟩
    exact ⟨_, rfl, rfl, rfl⟩
  · rintro byte ⟨taken, _, _, fault⟩ ⟨rfl, rfl⟩
    exact ⟨fault, _, rfl, rfl, rfl⟩
  · rintro room ⟨taken, _, _, fault⟩ ⟨rfl, rfl⟩
    exact ⟨_, rfl, rfl, rfl⟩

/-- With room for the first document and no more, its line break fails, and the second event is not
begun. -/
theorem results_of_hasRoom_document :
    let first := statementText "SELECT ?"
    let second := statementText "DELETE FROM users"
    let log : ByteLog := ⟨#[], some (document first).length, false, .brokenPipe⟩
    (log.room = some (document first).length ∧ log.failsFlush = false) ∧
      takenBytes (attempts [first, second] log) = document first ∧
      ∃ a b, attempts [first, second] log = [a, b] ∧
        (∃ fault, a.result = .error (.writing fault)) ∧
        ∃ fault, b.result = .error (.serializing fault) := by
  intro first second log
  have hlog : log.room = some (document first).length ∧ log.failsFlush = false := ⟨rfl, rfl⟩
  obtain ⟨htaken, hpayloads, hresults⟩ := results_of_hasRoom hasRoom_byteLog hlog [first, second]
  refine ⟨hlog, ?_, ?_⟩
  · rw [htaken, List.flatMap_cons, line, List.append_assoc, List.take_left]
  · rcases hattempts : attempts [first, second] log with _ | ⟨a, _ | ⟨b, _ | ⟨c, more⟩⟩⟩ <;>
      rw [hattempts] at hpayloads hresults <;>
      simp only [List.map_nil, List.map_cons, List.cons.injEq, reduceCtorEq, and_false, and_true]
        at hpayloads
    obtain ⟨-, -, hwriting, hothers⟩ := hresults [] a [b] rfl
    have hbreak := hwriting.mpr (by rw [hpayloads.1]; exact (Nat.zero_add _).symm)
    exact ⟨a, b, rfl, hbreak, (hothers hbreak).2 b (List.mem_singleton_self b)⟩

end LineSink

end QueryTelemetry
