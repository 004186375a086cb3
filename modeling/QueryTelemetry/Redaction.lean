import QueryTelemetry.Fingerprint
import QueryTelemetry.Redaction.Mentioned
import QueryTelemetry.Redaction.Options
import QueryTelemetry.Redaction.Scan

/-!
# Redaction

`redact` takes the data out of a statement: it replaces literals by question marks, drops comments
and collects the tables and commands that are mentioned. Texts that differ only in their data
become the same text.
-/

namespace QueryTelemetry

namespace Redaction

/-- Why a statement cannot be redacted. -/
inductive Failure
  /-- The options cannot be read. -/
  | invalidOptions
  /-- A lexeme does not end. -/
  | unterminated (lexeme : Unterminated)
  /-- Nothing is left of the statement. -/
  | empty
  deriving DecidableEq, Repr

/-- What a lexeme is called in messages. -/
def Delimited.describe : Delimited → String
  | stringLiteral => "string literal"
  | quotedIdentifier => "quoted identifier"
  | comment => "comment"
  | dollarQuoted => "dollar-quoted string"

/-- The message for a failure. -/
def Failure.message : Failure → String
  | invalidOptions => "invalid obfuscator options"
  | unterminated u => "unterminated " ++ u.kind.describe ++ " at byte " ++ toString u.position
  | empty => "empty statement"

/-- A statement without data. -/
structure Redacted where
  text : String
  mentions : Mentions
  deriving DecidableEq

/-- Takes the data out of a statement. -/
def redactWith (options : Options) (statement : String) : Except Failure Redacted :=
  match strip options.replaceDigits statement.toList with
  | .error u => .error (.unterminated u)
  | .ok [] => .error .empty
  | .ok text => .ok {
      text := String.ofList text
      mentions := {
        tableList :=
          if options.collectTables then ",".intercalate ((tables text).map String.ofList) else ""
        commands := if options.collectCommands then (commands text).map String.ofList else [] } }

/-- Takes the data out of a statement, with the options in a JSON text. -/
def redact (optionsText statement : String) : Except Failure Redacted :=
  match Options.parse? optionsText with
  | none => .error .invalidOptions
  | some options => redactWith options statement

/-- The normal statement that a row holds; none if the row is no statement or the statement cannot
be redacted. -/
def normalStatement? (redact : String → Except Failure Redacted) (row : ViewRow) :
    Option NormalStatement :=
  match Statement.ofRow row with
  | .error _ => none
  | .ok statement =>
    match redact statement.query with
    | .error _ => none
    | .ok redacted => some {
        statement := { statement with query := redacted.text }
        fingerprint := Fingerprint.ofText redacted.text
        mentions := redacted.mentions }

/-- The normal statements that the rows hold, in order. -/
def normalStatements (redact : String → Except Failure Redacted) (rows : List ViewRow) :
    List NormalStatement :=
  rows.filterMap (normalStatement? redact)

end Redaction

end QueryTelemetry
