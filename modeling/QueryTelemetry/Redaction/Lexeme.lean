import QueryTelemetry.Text.Alphanumeric
import QueryTelemetry.Text.Blank
import QueryTelemetry.Text.Search

/-!
# The lexemes of a statement

The text of a statement is read from left to right as string literals, quoted identifiers,
comments, dollar-quoted strings, parameters, numbers, blanks and single characters. `lexeme` reads
the one at the front and says what is to be written for it. What comes before matters in two ways:
digits and dollars within a word are part of the word, and a free-standing `E` before a string
makes backslashes in it escapes.
-/

namespace QueryTelemetry

namespace Redaction

/-- The lexemes that end with a delimiter of their own. -/
inductive Delimited
  | stringLiteral
  | quotedIdentifier
  | comment
  | dollarQuoted
  deriving DecidableEq, Repr

/-- A character of a word. -/
def isWordChar (c : Char) : Bool := Text.isAlphanumeric c || c == '_' || c == '$'

/-- A character of the tag between the dollars. -/
def isTagChar (c : Char) : Bool := Text.isAlphanumeric c || c == '_'

/-! ### Where lexemes end -/

/-- What follows the closing quote. A doubled quote does not close, and neither does one after a
backslash if backslashes are escapes. -/
def afterQuote? (quote : Char) (escapes : Bool) : List Char → Option (List Char)
  | [] => none
  | [c] => if escapes && c == '\\' then none else if c = quote then some [] else none
  | c :: d :: rest =>
    if escapes && c == '\\' then afterQuote? quote escapes rest
    else if c = quote then
      if d = quote then afterQuote? quote escapes rest else some (d :: rest)
    else afterQuote? quote escapes (d :: rest)

/-- What follows a sign, if there is one. -/
def afterSign : List Char → List Char
  | [] => []
  | sign :: rest => if sign = '+' ∨ sign = '-' then rest else sign :: rest

/-- What follows an exponent. Without a digit in it there is no exponent. -/
def afterExponent : List Char → List Char
  | [] => []
  | mark :: rest =>
    if (mark = 'e' ∨ mark = 'E') ∧ (afterSign rest).head?.any Char.isDigit = true then
      (afterSign rest).dropWhile Char.isDigit
    else mark :: rest

/-- A digit or a point. -/
def isDigitOrPoint (c : Char) : Bool := c.isDigit || c == '.'

/-- What follows a number: digits and points, and an exponent. -/
def afterNumber (text : List Char) : List Char := afterExponent (text.dropWhile isDigitOrPoint)

/-! ### Reading a lexeme -/

/-- What is written for a lexeme. -/
inductive Piece
  /-- A question mark. -/
  | placeholder
  /-- A question mark in place of the `E` that stands before it. -/
  | placeholderForMark
  /-- A single space, unless there is one already or nothing has been written yet. -/
  | blank
  /-- The text itself. -/
  | verbatim (text : List Char)
  deriving DecidableEq

/-- What the text written so far ends in. -/
structure Before where
  /-- A character of a word. -/
  inWord : Bool
  /-- An `E` or `e` that is not part of a longer word. -/
  escapeMark : Bool

/-- What a text, given last character first, ends in. -/
def Before.ofReversed : List Char → Before
  | [] => ⟨false, false⟩
  | c :: rest =>
    ⟨isWordChar c, (c == 'E' || c == 'e') && !(rest.head?.any isWordChar)⟩

/-- Reads a parameter, a dollar-quoted string or a lone dollar. The dollar itself has been read. -/
def dollarLexeme (rest : List Char) : Except Delimited (Piece × List Char) :=
  if rest.head?.any Char.isDigit then
    .ok (.verbatim ('$' :: rest.takeWhile Char.isDigit), rest.dropWhile Char.isDigit)
  else
    match rest.dropWhile isTagChar with
    | '$' :: body =>
      match Text.afterFirst? ('$' :: rest.takeWhile isTagChar ++ ['$']) body with
      | some after => .ok (.placeholder, after)
      | none => .error .dollarQuoted
    | _ => .ok (.verbatim ['$'], rest)

/-- Reads digits: a number, or a part of a word. The first digit has been read. -/
def digitLexeme (replaceDigits inWord : Bool) (first : Char) (rest : List Char) :
    Piece × List Char :=
  if !inWord then (.placeholder, afterNumber (first :: rest))
  else if replaceDigits then (.placeholder, rest.dropWhile Char.isDigit)
  else (.verbatim [first], rest)

/-- Reads the lexeme that starts with the character `first`, and gives what follows it. It fails if
the lexeme does not end. -/
def lexeme (replaceDigits : Bool) (before : Before) (first : Char) (rest : List Char) :
    Except Delimited (Piece × List Char) :=
  if first = '\'' then
    match afterQuote? '\'' before.escapeMark rest with
    | some after => .ok (if before.escapeMark then .placeholderForMark else .placeholder, after)
    | none => .error .stringLiteral
  else if first = '"' then
    match afterQuote? '"' false rest with
    | some after => .ok (.verbatim ('"' :: rest.take (rest.length - after.length)), after)
    | none => .error .quotedIdentifier
  else if first = '-' ∧ rest.head? = some '-' then
    .ok (.blank, rest.dropWhile (· != '\n'))
  else if first = '/' ∧ rest.head? = some '*' then
    match Text.afterFirst? ['*', '/'] (rest.drop 1) with
    | some after => .ok (.blank, after)
    | none => .error .comment
  else if first = '$' ∧ before.inWord = false then dollarLexeme rest
  else if first.isDigit then .ok (digitLexeme replaceDigits before.inWord first rest)
  else if Text.isBlank first then .ok (.blank, rest)
  else .ok (.verbatim [first], rest)

/-! ### A lexeme stands at the front of the text -/

theorem suffix_of_afterQuote? {quote : Char} {escapes : Bool} {text after : List Char}
    (h : afterQuote? quote escapes text = some after) : after <:+ text := by
  fun_induction afterQuote? quote escapes text with
  | case1 => simp at h
  | case2 => simp at h
  | case3 => simp [← Option.some.inj h]
  | case4 => simp at h
  | case5 c d rest _ ih => exact (ih h).trans ⟨[c, d], rfl⟩
  | case6 rest _ ih => exact (ih h).trans ⟨[quote, quote], rfl⟩
  | case7 => exact Option.some.inj h ▸ List.suffix_cons _ _
  | case8 c d rest _ _ ih => exact (ih h).trans (List.suffix_cons c (d :: rest))

theorem suffix_of_afterFirst? {needle text after : List Char}
    (h : Text.afterFirst? needle text = some after) : after <:+ text := by
  obtain ⟨front, rfl⟩ := Text.exists_eq_append_of_afterFirst? h
  exact List.suffix_append _ _

theorem afterSign_suffix (text : List Char) : afterSign text <:+ text := by
  cases text with
  | nil => exact List.suffix_refl _
  | cons sign rest =>
    simp only [afterSign]
    split
    · exact List.suffix_cons sign rest
    · exact List.suffix_refl _

theorem afterExponent_suffix (text : List Char) : afterExponent text <:+ text := by
  cases text with
  | nil => exact List.suffix_refl _
  | cons mark rest =>
    simp only [afterExponent]
    split
    · exact (List.dropWhile_suffix _).trans ((afterSign_suffix rest).trans (List.suffix_cons _ _))
    · exact List.suffix_refl _

theorem afterNumber_suffix {first : Char} (rest : List Char) (h : first.isDigit = true) :
    afterNumber (first :: rest) <:+ rest := by
  have hfirst : isDigitOrPoint first = true := by simp [isDigitOrPoint, h]
  rw [afterNumber, List.dropWhile_cons_of_pos hfirst]
  exact (afterExponent_suffix _).trans (List.dropWhile_suffix _)

theorem suffix_of_dollarLexeme {rest after : List Char} {piece : Piece}
    (h : dollarLexeme rest = .ok (piece, after)) : after <:+ rest := by
  unfold dollarLexeme at h
  split at h
  · obtain ⟨-, rfl⟩ := by simpa using h
    exact List.dropWhile_suffix _
  · split at h
    · rename_i body found
      have tag : '$' :: body <:+ rest := found ▸ List.dropWhile_suffix _
      split at h
      · rename_i closed
        obtain ⟨-, rfl⟩ := by simpa using h
        exact (suffix_of_afterFirst? closed).trans ((List.suffix_cons _ _).trans tag)
      · simp at h
    · obtain ⟨-, rfl⟩ := by simpa using h
      exact List.suffix_refl _

theorem digitLexeme_suffix (replaceDigits inWord : Bool) {first : Char} (rest : List Char)
    (h : first.isDigit = true) : (digitLexeme replaceDigits inWord first rest).2 <:+ rest := by
  unfold digitLexeme
  split
  · exact afterNumber_suffix rest h
  · split
    · exact List.dropWhile_suffix _
    · exact List.suffix_refl _

/-- What follows a lexeme is the end of the text. -/
theorem suffix_of_lexeme {replaceDigits : Bool} {before : Before} {first : Char}
    {rest after : List Char} {piece : Piece}
    (h : lexeme replaceDigits before first rest = .ok (piece, after)) : after <:+ rest := by
  unfold lexeme at h
  split at h
  · split at h
    · rename_i closed
      obtain ⟨-, rfl⟩ := by simpa using h
      exact suffix_of_afterQuote? closed
    · simp at h
  · split at h
    · split at h
      · rename_i closed
        obtain ⟨-, rfl⟩ := by simpa using h
        exact suffix_of_afterQuote? closed
      · simp at h
    · split at h
      · obtain ⟨-, rfl⟩ := by simpa using h
        exact List.dropWhile_suffix _
      · split at h
        · split at h
          · rename_i closed
            obtain ⟨-, rfl⟩ := by simpa using h
            exact (suffix_of_afterFirst? closed).trans (List.drop_suffix 1 rest)
          · simp at h
        · split at h
          · exact suffix_of_dollarLexeme h
          · split at h
            · rename_i digit
              have := digitLexeme_suffix replaceDigits before.inWord rest digit
              simp only [Except.ok.injEq] at h
              rwa [h] at this
            · split at h
              all_goals
                obtain ⟨-, rfl⟩ := by simpa using h
                exact List.suffix_refl _

end Redaction

end QueryTelemetry
