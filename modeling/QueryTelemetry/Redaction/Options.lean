import QueryTelemetry.Json.Reading
import QueryTelemetry.Text.Blank

/-!
# Options of the redaction

The options come as a JSON text. A text without anything in it stands for the defaults, and so does
every option that is not mentioned.
-/

namespace QueryTelemetry

namespace Redaction

/-- What the redaction does beyond replacing literals. -/
structure Options where
  /-- Whether digits within words are replaced too. -/
  replaceDigits : Bool
  collectTables : Bool
  collectCommands : Bool
  deriving DecidableEq, Repr

namespace Options

/-- Digits within words stay; tables and commands are collected. -/
def default : Options := ⟨false, true, true⟩

/-- The names of the options, in order. -/
def names : List String := ["replace_digits", "collect_tables", "collect_commands"]

/-- The options that a part of a JSON text gives. -/
def ofNode? (node : Json.Node) : Option Options :=
  match node.fields? names with
  | some [replaceDigits, collectTables, collectCommands] => do
    let replaceDigits ← Json.Node.orDefault Json.Node.bool? default.replaceDigits replaceDigits
    let collectTables ← Json.Node.orDefault Json.Node.bool? default.collectTables collectTables
    let collectCommands ←
      Json.Node.orDefault Json.Node.bool? default.collectCommands collectCommands
    some ⟨replaceDigits, collectTables, collectCommands⟩
  | _ => none

/-- The options that a text gives. -/
def parse? (text : String) : Option Options :=
  if (Text.trim text.toList).isEmpty then some default
  else (Json.Node.parse? text).bind ofNode?

end Options

end Redaction

end QueryTelemetry
