import QueryTelemetry.Redaction.Lexeme

/-!
# Statements without literals

`strip` goes through a statement lexeme by lexeme and writes the text that is left when literals
are replaced by question marks and comments and runs of blanks by single spaces. It fails at the
first lexeme that does not end, with its position. Lists of question marks are then written as one
question mark (`collapse`), so that the length of a list of values leaves no trace.
-/

namespace QueryTelemetry

namespace Redaction

/-- A lexeme that does not end: its kind and the number of characters before it. -/
structure Unterminated where
  kind : Delimited
  position : Nat
  deriving DecidableEq, Repr

namespace Piece

/-- Appends a piece to a text that is given last character first. -/
def appendTo : Piece → List Char → List Char
  | placeholder, written => '?' :: written
  | placeholderForMark, written => '?' :: written.drop 1
  | blank, written =>
    if written.isEmpty || written.head? == some ' ' then written else ' ' :: written
  | verbatim text, written => text.reverse ++ written

end Piece

/-- Reads the rest of a statement of `total` characters. What has been written so far is given last
character first, and so is the result. -/
def scan (replaceDigits : Bool) (total : Nat) (written : List Char) :
    List Char → Except Unterminated (List Char)
  | [] => .ok written
  | first :: rest =>
    match _ : lexeme replaceDigits (Before.ofReversed written) first rest with
    | .error kind => .error ⟨kind, total - (rest.length + 1)⟩
    | .ok (piece, after) => scan replaceDigits total (piece.appendTo written) after
termination_by text => text.length
decreasing_by
  have := (suffix_of_lexeme (by assumption)).length_le
  simp only [List.length_cons]
  omega

/-- Replaces each list of question marks by one question mark. Between the marks of a list stands
the separator. -/
def collapse (separator : List Char) : List Char → List Char
  | [] => []
  | c :: rest =>
    let done := collapse separator rest
    if c = '?' ∧ (separator ++ ['?']).isPrefixOf done then done.drop separator.length else c :: done

/-- The statement without literals and comments. -/
def strip (replaceDigits : Bool) (statement : List Char) : Except Unterminated (List Char) :=
  (scan replaceDigits statement.length [] statement).map fun written =>
    collapse [','] (collapse [',', ' '] (Text.trim written.reverse))

end Redaction

end QueryTelemetry
