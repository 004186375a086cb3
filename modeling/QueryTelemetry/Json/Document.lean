import QueryTelemetry.Json.Token

/-!
# The structure of a JSON text

`Node.parse?` reads a JSON text as a tree whose leaves are still written text. The reader goes
through the tokens once, with a stack of the lists and records that are still open, so the depth
of the nesting is limited only by the length of the text.
-/

namespace QueryTelemetry

namespace Json

/-- A part of a JSON text, with texts and numbers as written. -/
inductive Node
  | null
  | bool (b : Bool)
  | number (n : NumberText)
  | text (units : List TextUnit)
  | list (items : List Node)
  | record (members : List (List TextUnit × Node))

/-- A list or record that is still open, with what it holds so far, last first. -/
inductive Frame
  | list (before : List Node)
  | record (before : List (List TextUnit × Node)) (name : List TextUnit)

/-- What the reader waits for. -/
inductive Awaiting
  /-- A value. -/
  | value
  /-- The first item of a list or the end of the list. -/
  | firstItem
  /-- The name of a member, or the end of the record if there has been no comma. -/
  | name (before : List (List TextUnit × Node)) (mayEnd : Bool)
  /-- The colon after a name. -/
  | colon (before : List (List TextUnit × Node)) (name : List TextUnit)
  /-- Nothing in particular: this value is complete. -/
  | nothing (complete : Node)

/-- The state of the reader. -/
structure Reader where
  stack : List Frame
  awaiting : Awaiting

namespace Reader

/-- Nothing has been read yet. -/
def initial : Reader := ⟨[], .value⟩

/-- Reads the first token of a value. -/
def beginValue (stack : List Frame) : Token → Option Reader
  | .null => some ⟨stack, .nothing .null⟩
  | .bool b => some ⟨stack, .nothing (.bool b)⟩
  | .number n => some ⟨stack, .nothing (.number n)⟩
  | .text units => some ⟨stack, .nothing (.text units)⟩
  | .listStart => some ⟨.list [] :: stack, .firstItem⟩
  | .recordStart => some ⟨stack, .name [] true⟩
  | _ => none

/-- Reads one token, if it may come next. -/
def read? (r : Reader) (token : Token) : Option Reader :=
  match r.awaiting, token, r.stack with
  | .value, token, stack => beginValue stack token
  | .firstItem, .listEnd, .list _ :: stack => some ⟨stack, .nothing (.list [])⟩
  | .firstItem, token, stack => beginValue stack token
  | .name before _, .text units, stack => some ⟨stack, .colon before units⟩
  | .name before true, .recordEnd, stack => some ⟨stack, .nothing (.record before.reverse)⟩
  | .colon before name, .colon, stack => some ⟨.record before name :: stack, .value⟩
  | .nothing item, .comma, .list before :: stack => some ⟨.list (item :: before) :: stack, .value⟩
  | .nothing item, .listEnd, .list before :: stack =>
    some ⟨stack, .nothing (.list (item :: before).reverse)⟩
  | .nothing value, .comma, .record before name :: stack =>
    some ⟨stack, .name ((name, value) :: before) false⟩
  | .nothing value, .recordEnd, .record before name :: stack =>
    some ⟨stack, .nothing (.record ((name, value) :: before).reverse)⟩
  | _, _, _ => none

/-- The value that has been read, if the text is complete. -/
def result? (r : Reader) : Option Node :=
  match r.stack, r.awaiting with
  | [], .nothing value => some value
  | _, _ => none

end Reader

namespace Node

/-- The value that a list of tokens describes. -/
def ofTokens? (tokens : List Token) : Option Node :=
  (tokens.foldlM Reader.read? Reader.initial).bind Reader.result?

/-- The value that a JSON text describes: one value, with gaps around its tokens. -/
def parse? (text : String) : Option Node :=
  (tokens? text.toList).bind ofTokens?

end Node

end Json

end QueryTelemetry
