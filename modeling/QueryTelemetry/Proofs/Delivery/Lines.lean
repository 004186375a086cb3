import QueryTelemetry.Proofs.Delivery.Attempts
import QueryTelemetry.Proofs.Delivery.Contents
import QueryTelemetry.Proofs.Splitting
import QueryTelemetry.Proofs.Utf8

/-!
# Each event is a line of its own

The document of an event has no line break (`lineBreak_not_mem_document`), so the output of a sink
that takes everything falls into the documents again, and each of them is read back
(`lines_of_takesAll`).
-/

namespace QueryTelemetry

/-- The value that bytes describe, as a JSON text in UTF-8. -/
def Json.Node.ofUtf8? (bytes : List UInt8) : Option Node := (Text.ofUtf8? bytes).bind parse?

namespace LineSink

/-- There are no control characters in a document. -/
theorem lineBreak_not_mem_document (payload : Payload) : lineBreak ∉ document payload := by
  intro hmem
  have hrender : payload.render.toList = payload.toJson.write := String.toList_ofList
  have hbound : 0x20 ≤ lineBreak.toNat := by
    refine Text.toNat_ge_of_mem_utf8 ?_ hmem
    intro c hc
    rw [hrender] at hc
    exact Json.toNat_ge_of_mem_write payload.toJson hc
  exact absurd hbound (by decide)

/-- A document is read back as what it was written from. -/
theorem ofUtf8?_document (payload : Payload) :
    Json.Node.ofUtf8? (document payload) = some payload.toJson.node := by
  rw [Json.Node.ofUtf8?, document, Text.ofUtf8?_utf8, Option.bind_some]
  exact Json.parse?_render payload.toJson

theorem takenBytes_attempts {ω : Type} [ByteSink ω] {P : ω → Prop} (h : TakesAll P) {sink : ω}
    (hsink : P sink) (payloads : List Payload) :
    takenBytes (attempts payloads sink) = (payloads.map document).flatMap (· ++ [lineBreak]) := by
  rw [takenBytes, attempts_of_takesAll h hsink, List.flatMap_map, List.flatMap_map]
  rfl

/-- The contents of events are known from their documents. -/
theorem withoutDoubles_eq_of_document {payloads others : List Payload}
    (h : payloads.map document = others.map document) :
    payloads.map Payload.withoutDoubles = others.map Payload.withoutDoubles := by
  have hread : ∀ payload, (Json.Node.ofUtf8? (document payload)).bind Payload.ofNode? =
      some payload.withoutDoubles := by
    intro payload
    rw [ofUtf8?_document, Option.bind_some, payload.ofNode?_node]
  have hmap : ∀ events : List Payload,
      (events.map document).map (fun bytes => (Json.Node.ofUtf8? bytes).bind Payload.ofNode?) =
        (events.map Payload.withoutDoubles).map some := by
    intro events
    rw [List.map_map, List.map_map]
    refine List.map_congr_left fun payload _ => ?_
    rw [Function.comp_apply, Function.comp_apply, hread]
  have hsome := hmap payloads
  rw [h, hmap others] at hsome
  exact (List.map_inj_right fun _ _ => Option.some.inj).mp hsome.symm

/-- **Each event is a line of its own.** A sink that takes everything delivers all events. Its
output has one line break for each of them, at the end of its line. What stands before is one JSON
document in which no record has a key twice; it has the tag of its event, and its contents are read
from it, without their doubles. So events that differ in anything but doubles have different
outputs. -/
theorem lines_of_takesAll {ω : Type} [ByteSink ω] {P : ω → Prop} (h : TakesAll P) {sink other : ω}
    (hsink : P sink) (hother : P other) (payloads others : List Payload) :
    (attempts payloads sink).map Attempt.result = payloads.map (fun _ => .ok ()) ∧
      (takenBytes (attempts payloads sink)).count lineBreak = payloads.length ∧
      Text.splitAt lineBreak (takenBytes (attempts payloads sink)) =
        payloads.map document ++ [[]] ∧
      (∀ payload ∈ payloads, ∃ node, Json.Node.ofUtf8? (document payload) = some node ∧
        node.HasDistinctKeys ∧ node.field? "type" Json.Node.text? = some payload.tag ∧
        Payload.ofNode? node = some payload.withoutDoubles) ∧
      (takenBytes (attempts payloads sink) = takenBytes (attempts others other) →
        payloads.map Payload.withoutDoubles = others.map Payload.withoutDoubles) := by
  have hnot : ∀ events : List Payload, ∀ part ∈ events.map document, lineBreak ∉ part := by
    intro events part hpart
    obtain ⟨payload, -, rfl⟩ := List.mem_map.mp hpart
    exact lineBreak_not_mem_document payload
  have hlines := Text.splitAt_flatMap (hnot payloads)
  have hothers := Text.splitAt_flatMap (hnot others)
  rw [takenBytes_attempts h hsink, takenBytes_attempts h hother]
  refine ⟨?_, ?_, hlines, ?_, ?_⟩
  · rw [attempts_of_takesAll h hsink, List.map_map]
    rfl
  · rw [Text.count_flatMap (hnot payloads), List.length_map]
  · intro payload _
    exact ⟨payload.toJson.node, ofUtf8?_document payload,
      Json.hasDistinctKeys_node payload.hasDistinctNames_toJson, payload.tag_node,
      payload.ofNode?_node⟩
  · intro heq
    rw [heq, hothers] at hlines
    exact withoutDoubles_eq_of_document (List.append_cancel_right hlines).symm

theorem takesAll_byteLog :
    TakesAll (fun log : ByteLog => log.room = none ∧ log.failsFlush = false) := by
  constructor
  · rintro byte ⟨taken, room, failsFlush, fault⟩ ⟨hroom, hflush⟩
    subst hroom hflush
    exact ⟨_, rfl, rfl, rfl⟩
  · rintro ⟨taken, room, failsFlush, fault⟩ ⟨hroom, hflush⟩
    subst hroom hflush
    exact ⟨_, rfl, rfl, rfl⟩

/-- A text with characters that are escaped, and a row with a number of calls. -/
def eventsWithCalls (calls : Int64) : List Payload :=
  [.text ⟨0, "db-1", "0.1.0", "postgres", "env:prod", "fqt", none, "1f", "SELECT 'a\n\"b\\'", none,
      none⟩,
    .metrics ⟨"db-1", 0, 10, ["env:prod"],
      [⟨Metrics.empty.set .calls (.whole calls), "SELECT ?", "1f", some "app", none, some 42,
        some ["users"], ["SELECT"]⟩],
      "v16.0.0", "0.1.0"⟩]

theorem lines_of_takesAll_calls :
    TakesAll (fun log : ByteLog => log.room = none ∧ log.failsFlush = false) ∧
      takenBytes (attempts (eventsWithCalls 3) (ByteLog.mk #[] none false .brokenPipe)) ≠
        takenBytes (attempts (eventsWithCalls 4) (ByteLog.mk #[] none false .brokenPipe)) := by
  refine ⟨takesAll_byteLog, ?_⟩
  intro heq
  have hlines := @lines_of_takesAll ByteLog _ _ takesAll_byteLog
    (ByteLog.mk #[] none false .brokenPipe) (ByteLog.mk #[] none false .brokenPipe)
    ⟨rfl, rfl⟩ ⟨rfl, rfl⟩ (eventsWithCalls 3) (eventsWithCalls 4)
  have hmetrics : (Metrics.empty.set .calls (.whole 3)).withoutDoubles =
      (Metrics.empty.set .calls (.whole 4)).withoutDoubles := by
    simpa [eventsWithCalls, Payload.withoutDoubles, MetricsRow.withoutDoubles] using
      hlines.2.2.2.2 heq
  have hcalls := congrArg (·.get? .calls) hmetrics
  simp [Metrics.withoutDoubles, Counter.withoutDouble] at hcalls

end LineSink

end QueryTelemetry
