import QueryTelemetry.Event
import QueryTelemetry.Text.Utf8

/-!
# Where events go

An `EventSink` takes events and may refuse any of them. Two sinks are given: `LineSink` writes each
event as one line of JSON to a sink for bytes, and `EventLog` keeps the events. A sink for bytes
may fail in the middle of a line; which part of the line it failed in decides on the kind of error.
-/

namespace QueryTelemetry

/-- Why a sink for bytes fails. -/
inductive IoFault
  | brokenPipe
  | permissionDenied
  | storageFull
  | notFound
  deriving DecidableEq, Repr

/-- The message for a fault. -/
def IoFault.message : IoFault → String
  | brokenPipe => "broken pipe"
  | permissionDenied => "permission denied"
  | storageFull => "no storage space"
  | notFound => "entity not found"

/-- Why an event was not delivered. -/
inductive DeliveryError
  /-- The sink refused the event, or failed at the end of the line or when it was flushed. -/
  | writing (fault : IoFault)
  /-- The sink failed within the document. -/
  | serializing (fault : IoFault)
  deriving DecidableEq, Repr

/-- The message for an error. -/
def DeliveryError.message : DeliveryError → String
  | writing fault => "write failed: " ++ fault.message
  | serializing fault => "serialization failed: " ++ fault.message

/-- Something that takes events, one at a time. -/
class EventSink (τ : Type) where
  send : Event → τ → Except DeliveryError Unit × τ

/-- Something that takes bytes, one at a time. -/
class ByteSink (ω : Type) where
  put : UInt8 → ω → Except IoFault Unit × ω
  flush : ω → Except IoFault Unit × ω

namespace ByteSink

variable {ω : Type} [ByteSink ω]

/-- Puts bytes up to the first that is not taken. -/
def putAll : List UInt8 → ω → Except IoFault Unit × ω
  | [], sink => (.ok (), sink)
  | byte :: rest, sink =>
    match put byte sink with
    | (.ok (), sink) => putAll rest sink
    | (.error fault, sink) => (.error fault, sink)

end ByteSink

/-! ### Lines of JSON -/

/-- Writes each event as a line of JSON. -/
structure LineSink (ω : Type) where
  output : ω

namespace LineSink

variable {ω : Type} [ByteSink ω]

/-- The bytes of an event, without the line break. -/
def document (payload : Payload) : List UInt8 := Text.utf8 payload.render

/-- The line break. -/
def lineBreak : UInt8 := 10

/-- Writes the document, then the line break, then flushes the output. -/
def write (payload : Payload) (output : ω) : Except DeliveryError Unit × ω :=
  match ByteSink.putAll (document payload) output with
  | (.error fault, output) => (.error (.serializing fault), output)
  | (.ok (), output) =>
    match ByteSink.put lineBreak output with
    | (.error fault, output) => (.error (.writing fault), output)
    | (.ok (), output) =>
      match ByteSink.flush output with
      | (.error fault, output) => (.error (.writing fault), output)
      | (.ok (), output) => (.ok (), output)

instance : EventSink (LineSink ω) where
  send event sink :=
    let (result, output) := write event.payload sink.output
    (result, ⟨output⟩)

end LineSink

/-- Keeps the bytes it takes. It may have room for a limited number of them, and it may fail
whenever it is flushed. -/
structure ByteLog where
  taken : Array UInt8
  /-- How many bytes it still takes; none if there is no limit. -/
  room : Option Nat
  failsFlush : Bool
  /-- The fault it fails with. -/
  fault : IoFault

instance : ByteSink ByteLog where
  put byte log :=
    match log.room with
    | none => (.ok (), { log with taken := log.taken.push byte })
    | some 0 => (.error log.fault, log)
    | some (room + 1) => (.ok (), { log with taken := log.taken.push byte, room := some room })
  flush log := (if log.failsFlush then .error log.fault else .ok (), log)

/-! ### Keeping events -/

/-- Keeps the events it takes. With a fault it takes none. -/
structure EventLog where
  texts : List TextEvent
  metrics : List MetricsEvent
  fault : Option IoFault

namespace EventLog

/-- Holds no events yet. -/
def empty (fault : Option IoFault) : EventLog := ⟨[], [], fault⟩

/-- Keeps an event. -/
def keep (log : EventLog) : Event → EventLog
  | .text event => { log with texts := log.texts ++ [event] }
  | .metrics event => { log with metrics := log.metrics ++ [event] }

instance : EventSink EventLog where
  send event log :=
    match log.fault with
    | some fault => (.error (.writing fault), log)
    | none => (.ok (), log.keep event)

end EventLog

end QueryTelemetry
