import Mathlib.Data.List.Induction
import QueryTelemetry.Proofs.Delivery.Lines

/-!
# Torn lines

If a sink fails within a line, the part of the line that it has taken stays in its output, and
nothing ends it. An event that is delivered afterwards has its whole line in the output, but the
line begins where the torn one stopped: it is a line of its own exactly if no torn line is before it
(`startsLine_iff_of_delivered`).
-/

namespace QueryTelemetry

namespace LineSink

/-- A line begins behind these bytes. -/
def StartsLine (front : List UInt8) : Prop := front = [] ∨ front.getLast? = some lineBreak

/-- The document of an event is a line of its own. -/
def IsLineOf (payload : Payload) (bytes : List UInt8) : Prop :=
  ∃ front rest, bytes = front ++ document payload ++ lineBreak :: rest ∧ StartsLine front

/-- The last attempt that left anything. -/
def lastTaken? (tried : List Attempt) : Option Attempt :=
  (tried.filter fun a => a.taken ≠ []).getLast?

/-- The last attempt that left anything left only a part of its line. -/
def EndsTorn (tried : List Attempt) : Prop :=
  ∃ a, lastTaken? tried = some a ∧ a.taken ≠ line a.payload

theorem lastTaken?_concat (tried : List Attempt) (a : Attempt) :
    lastTaken? (tried ++ [a]) = if a.taken = [] then lastTaken? tried else some a := by
  by_cases h : a.taken = [] <;> simp [lastTaken?, List.filter_append, h]

theorem takenBytes_concat (tried : List Attempt) (a : Attempt) :
    takenBytes (tried ++ [a]) = takenBytes tried ++ a.taken := by
  rw [takenBytes, List.flatMap_append, List.flatMap_singleton]
  rfl

/-- A part of a line has a line break at its end exactly if it is the whole line. -/
theorem getLast?_eq_lineBreak_iff {payload : Payload} {part : List UInt8}
    (h : part <+: line payload) : part.getLast? = some lineBreak ↔ part = line payload := by
  constructor
  · intro hlast
    rcases List.prefix_concat_iff.mp h with hwhole | hpart
    · exact hwhole
    · have hmem : lineBreak ∈ document payload := hpart.subset (List.mem_of_getLast? hlast)
      exact absurd hmem (lineBreak_not_mem_document payload)
  · intro hwhole
    rw [hwhole, line, List.getLast?_concat]

/-- A line begins behind what attempts have left exactly if they have not left a torn line at the
end. -/
theorem startsLine_iff {tried : List Attempt} (h : ∀ a ∈ tried, a.taken <+: line a.payload) :
    StartsLine (takenBytes tried) ↔ ¬ EndsTorn tried := by
  induction tried using List.reverseRecOn with
  | nil =>
    refine iff_of_true (.inl rfl) ?_
    rintro ⟨a, ha, -⟩
    cases ha
  | append_singleton tried a ih =>
    have hbefore := ih fun b hb => h b (List.mem_append_left _ hb)
    have hpart : a.taken <+: line a.payload := h a (by simp)
    rw [takenBytes_concat, EndsTorn, lastTaken?_concat]
    by_cases hnil : a.taken = []
    · rw [hnil, List.append_nil, hbefore, if_pos rfl]
      rfl
    · -- what this attempt left ends the output
      have hlast : (takenBytes tried ++ a.taken).getLast? = a.taken.getLast? := by
        rw [List.getLast?_append, List.getLast?_eq_some_getLast hnil, Option.some_or]
      have hne : takenBytes tried ++ a.taken ≠ [] := by simp [hnil]
      rw [StartsLine, hlast, getLast?_eq_lineBreak_iff hpart, if_neg hnil]
      simp [hne]

/-- **Torn lines.** Whatever a sink does, each event is tried, and one that is delivered has its
whole line in the output, behind what the attempts before it have left. It is a line of its own
exactly if these have not left a torn line at the end. -/
theorem startsLine_iff_of_delivered {ω : Type} [ByteSink ω] {payloads : List Payload} {sink : ω}
    {before after : List Attempt} {a : Attempt}
    (h : attempts payloads sink = before ++ a :: after) (hok : a.result = .ok ()) :
    payloads = before.map Attempt.payload ++ a.payload :: after.map Attempt.payload ∧
      takenBytes (attempts payloads sink) =
        takenBytes before ++ document a.payload ++ lineBreak :: takenBytes after ∧
      (StartsLine (takenBytes before) ↔ ¬ EndsTorn before) := by
  have hmem : ∀ b ∈ before ++ a :: after, b ∈ attempts payloads sink := by
    intro b hb
    rw [h]
    exact hb
  have hpart : ∀ b ∈ before, b.taken <+: line b.payload :=
    fun b hb => (taken_of_mem_attempts (hmem b (List.mem_append_left _ hb))).1
  have hline : a.taken = line a.payload :=
    (taken_of_mem_attempts (hmem a (List.mem_append_right _ List.mem_cons_self))).2 hok
  refine ⟨?_, ?_, startsLine_iff hpart⟩
  · have hpayloads := map_payload_attempts payloads sink
    rw [h, List.map_append, List.map_cons] at hpayloads
    exact hpayloads.symm
  · rw [h, takenBytes, List.flatMap_append, List.flatMap_cons, hline, line]
    simp [takenBytes]

end LineSink

/-! ### A sink that fails once -/

/-- A sink that fails once, after it has taken a number of bytes, and takes everything else. -/
structure Hiccup where
  /-- How many bytes it takes before it fails; none if it has failed. -/
  room : Option Nat

instance : ByteSink Hiccup where
  put _ hiccup :=
    match hiccup.room with
    | none => (.ok (), hiccup)
    | some 0 => (.error .storageFull, ⟨none⟩)
    | some (room + 1) => (.ok (), ⟨some room⟩)
  flush hiccup := (.ok (), hiccup)

namespace LineSink

theorem takesAll_hiccup : TakesAll (fun hiccup : Hiccup => hiccup.room = none) := by
  constructor
  · rintro byte ⟨room⟩ hroom
    subst hroom
    exact ⟨_, rfl, rfl⟩
  · rintro ⟨room⟩ hroom
    exact ⟨_, rfl, hroom⟩

/-- A document begins with a brace and a quote. -/
theorem exists_document_eq (payload : Payload) : ∃ more, document payload = 123 :: 34 :: more := by
  obtain ⟨more, hmore⟩ : ∃ more, payload.toJson.write = '{' :: '"' :: more := ⟨_, rfl⟩
  have hrender : payload.render.toList = '{' :: '"' :: more := by
    rw [← hmore]
    exact String.toList_ofList
  refine ⟨more.flatMap String.utf8EncodeChar, ?_⟩
  rw [document, Text.utf8_eq_flatMap, hrender]
  rfl

/-- If the sink fails behind the first byte of an event, the next event is delivered all the
same. -/
theorem attempts_hiccup (first second : Payload) :
    attempts [first, second] (Hiccup.mk (some 1)) =
      [⟨first, .error (.serializing .storageFull), [123]⟩, ⟨second, .ok (), line second⟩] := by
  obtain ⟨more, hdocument⟩ := exists_document_eq first
  have hsecond := attempts_of_takesAll takesAll_hiccup (rfl : (Hiccup.mk none).room = none) [second]
  have hfirst : write first (⟨⟨some 1⟩, []⟩ : Recorded Hiccup) =
      (.error (.serializing .storageFull), ⟨⟨none⟩, [123]⟩) := by
    rw [write, hdocument]
    rfl
  rw [attempts, hfirst]
  exact congrArg _ hsecond

/-- Behind one more brace a document is no line of its own. -/
theorem not_isLineOf_cons (payload : Payload) : ¬ IsLineOf payload (123 :: line payload) := by
  rintro ⟨front, rest, hbytes, hstart⟩
  have hlength := congrArg List.length hbytes
  simp only [line, List.length_cons, List.length_append, List.length_nil] at hlength
  cases front with
  | nil =>
    -- the output has two braces at its start, the document has one
    obtain ⟨more, hdocument⟩ := exists_document_eq payload
    rw [line, hdocument] at hbytes
    simp at hbytes
  | cons byte front =>
    rw [List.length_cons] at hlength
    obtain rfl : front = [] := List.length_eq_zero_iff.mp (by omega)
    obtain ⟨rfl, -⟩ := List.cons.inj hbytes
    simp [StartsLine, lineBreak] at hstart

/-- The text of a statement. -/
def statementText (statement : String) : Payload :=
  .text ⟨0, "db-1", "0.1.0", "postgres", "env:prod", "fqt", none, "1f", statement, none, none⟩

theorem startsLine_iff_of_delivered_hiccup :
    let before : List Attempt :=
      [⟨statementText "SELECT ?", .error (.serializing .storageFull), [123]⟩]
    let delivered : Attempt :=
      ⟨statementText "DELETE FROM users", .ok (), line (statementText "DELETE FROM users")⟩
    attempts [statementText "SELECT ?", statementText "DELETE FROM users"] (Hiccup.mk (some 1)) =
        before ++ delivered :: [] ∧
      EndsTorn before ∧ ¬ StartsLine (takenBytes before) := by
  intro before delivered
  have h := attempts_hiccup (statementText "SELECT ?") (statementText "DELETE FROM users")
  have htorn : EndsTorn before := by
    obtain ⟨more, hdocument⟩ := exists_document_eq (statementText "SELECT ?")
    refine ⟨_, rfl, ?_⟩
    simp [line, hdocument]
  have hline := @startsLine_iff_of_delivered Hiccup _ _ _ before [] delivered h rfl
  exact ⟨h, htorn, fun hstart => hline.2.2.mp hstart htorn⟩

/-- An event that is delivered need not be a line of its own: behind a torn line it is not. -/
theorem not_isLineOf_of_hiccup :
    ¬ ∀ a ∈ attempts [statementText "SELECT ?", statementText "DELETE FROM users"]
        (Hiccup.mk (some 1)),
      a.result = .ok () → IsLineOf a.payload (takenBytes (attempts
        [statementText "SELECT ?", statementText "DELETE FROM users"] (Hiccup.mk (some 1)))) := by
  rw [attempts_hiccup]
  intro hall
  have hdelivered := hall _ (List.mem_cons_of_mem _ List.mem_cons_self) rfl
  refine not_isLineOf_cons (statementText "DELETE FROM users") ?_
  simpa [takenBytes] using hdelivered

end LineSink

end QueryTelemetry
