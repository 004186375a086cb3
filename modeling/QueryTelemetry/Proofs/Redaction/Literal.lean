import QueryTelemetry.Proofs.Redaction.Locality

/-!
# Literals leave no trace

The text between the delimiters of a literal has no influence on what is left of a statement: if one
literal is put in the place of another of the same kind, the outcome of the redaction is the same
(`redact_replace_literal`). There are three kinds, the standard string, the escape string, and the
dollar-quoted string, whose tag is as irrelevant as what it encloses. Which of them a delimiter
begins depends on the text written so far.
-/

namespace QueryTelemetry

namespace Redaction

/-! ### Literals -/

/-- The ways to quote a literal. -/
inductive Quotation
  | standardString
  | escapeString
  | dollarQuoted

/-- A text with each quote in it doubled. -/
def doubleQuotes : List Char → List Char
  | [] => []
  | c :: rest => if c = '\'' then '\'' :: '\'' :: doubleQuotes rest else c :: doubleQuotes rest

/-- What may stand between the quotes of an escape string: other characters than quotes and
backslashes, doubled quotes, and backslashes with the characters after them. -/
inductive IsEscapeBody : List Char → Prop
  | nil : IsEscapeBody []
  | plain {c : Char} {rest : List Char} :
      c ≠ '\'' → c ≠ '\\' → IsEscapeBody rest → IsEscapeBody (c :: rest)
  | doubled {rest : List Char} : IsEscapeBody rest → IsEscapeBody ('\'' :: '\'' :: rest)
  | escaped {c : Char} {rest : List Char} : IsEscapeBody rest → IsEscapeBody ('\\' :: c :: rest)

/-- What stands before and after a text that is quoted with a tag. -/
def tagDelimiter (tag : List Char) : List Char := '$' :: tag ++ ['$']

/-- The literals of a kind. The `E` before an escape string is not part of it. The delimiter that
closes a dollar-quoted string is the first one after the delimiter that opens it. -/
inductive IsLiteral : Quotation → List Char → Prop
  | standardString (body : List Char) :
      IsLiteral .standardString ('\'' :: doubleQuotes body ++ ['\''])
  | escapeString {body : List Char} :
      IsEscapeBody body → IsLiteral .escapeString ('\'' :: body ++ ['\''])
  | dollarQuoted {tag body : List Char} :
      (∀ c ∈ tag, isTagChar c = true) → tag.head?.any Char.isDigit = false →
      (∀ front back, body ++ tagDelimiter tag = front ++ tagDelimiter tag ++ back →
        body.length ≤ front.length) →
      IsLiteral .dollarQuoted (tagDelimiter tag ++ body ++ tagDelimiter tag)

namespace Quotation

/-- Whether a delimiter begins a literal of this kind behind what has been written, last character
first: an escape string needs an `E` of its own, a standard string must not have one, and a dollar
within a word does not quote. -/
def CanFollow (written : List Char) : Quotation → Prop
  | standardString => (Before.ofReversed written).escapeMark = false
  | escapeString => (Before.ofReversed written).escapeMark = true
  | dollarQuoted => (Before.ofReversed written).inWord = false

/-- Whether a literal of this kind ends in front of a text: another quote would be part of it. -/
def CanPrecede (rest : List Char) : Quotation → Prop
  | standardString | escapeString => rest.head? ≠ some '\''
  | dollarQuoted => True

/-- The character that literals of this kind begin with. -/
def mark : Quotation → Char
  | standardString | escapeString => '\''
  | dollarQuoted => '$'

theorem isStop_mark (quotation : Quotation) : IsStop quotation.mark := by
  cases quotation
  · exact .inl rfl
  · exact .inl rfl
  · exact .inr rfl

/-- What is written for a literal of this kind. -/
def piece : Quotation → Piece
  | standardString | dollarQuoted => .placeholder
  | escapeString => .placeholderForMark

end Quotation

/-! ### Where literals end -/

variable {rest : List Char}

/-- A standard string ends behind its closing quote. -/
theorem afterQuote?_doubleQuotes (body : List Char) (hrest : rest.head? ≠ some '\'') :
    afterQuote? '\'' false (doubleQuotes body ++ '\'' :: rest) = some rest := by
  induction body with
  | nil => exact afterQuote?_closed rfl hrest
  | cons c body ih =>
    rw [doubleQuotes]
    split
    · rw [List.cons_append, List.cons_append, afterQuote?_doubled rfl, ih]
    · rw [List.cons_append, afterQuote?_cons rfl ‹_›, ih]

/-- An escape string ends behind its closing quote. -/
theorem afterQuote?_escapeBody {body : List Char} (hbody : IsEscapeBody body)
    (hrest : rest.head? ≠ some '\'') :
    afterQuote? '\'' true (body ++ '\'' :: rest) = some rest := by
  induction hbody with
  | nil => exact afterQuote?_closed rfl hrest
  | plain hquote hescape _ ih =>
    rw [List.cons_append, afterQuote?_cons (by simpa using hescape) hquote, ih]
  | doubled _ ih => rw [List.cons_append, List.cons_append, afterQuote?_doubled rfl, ih]
  | escaped _ ih => rw [List.cons_append, List.cons_append, afterQuote?, if_pos (by simp), ih]

/-- A text is found where it first occurs, whatever follows. -/
theorem afterFirst?_append {needle body : List Char} (hneedle : needle ≠ [])
    (first : ∀ front back, body ++ needle = front ++ needle ++ back → body.length ≤ front.length) :
    Text.afterFirst? needle (body ++ (needle ++ rest)) = some rest := by
  induction body with
  | nil =>
    obtain ⟨c, more, rfl⟩ := List.exists_cons_of_ne_nil hneedle
    have found : (c :: more).isPrefixOf (c :: more ++ rest) = true :=
      List.isPrefixOf_iff_prefix.mpr (List.prefix_append _ _)
    rw [List.nil_append, List.cons_append, Text.afterFirst?, ← List.cons_append, if_pos found,
      List.drop_left]
  | cons c body ih =>
    have hnot : ¬ needle.isPrefixOf (c :: (body ++ (needle ++ rest))) = true := by
      intro found
      -- the needle is short enough to end before `rest`, so it stands in `body ++ needle`
      have hfront : c :: body ++ needle <+: c :: (body ++ (needle ++ rest)) := ⟨rest, by simp⟩
      have inside : needle <+: c :: body ++ needle := by
        refine List.prefix_of_prefix_length_le (List.isPrefixOf_iff_prefix.mp found) hfront ?_
        simp only [List.length_append]
        omega
      obtain ⟨back, hback⟩ := inside
      have := first [] back (by rw [List.nil_append, hback])
      simp at this
    rw [List.cons_append, Text.afterFirst?, if_neg hnot]
    refine ih fun front back h => ?_
    have := first (c :: front) back (by rw [List.cons_append, h]; rfl)
    simpa using this

/-! ### Literals in a statement -/

/-- A literal is one lexeme. -/
theorem IsLiteral.reads {quotation : Quotation} {literal written : List Char}
    (replaceDigits : Bool) (h : IsLiteral quotation literal) (hbefore : quotation.CanFollow written)
    (hafter : quotation.CanPrecede rest) :
    ∃ more, literal = quotation.mark :: more ∧
      Reads replaceDigits (Before.ofReversed written) quotation.mark (more ++ rest)
        quotation.piece rest := by
  cases h with
  | standardString body =>
    have hmark : (Before.ofReversed written).escapeMark = false := hbefore
    have hread : Reads replaceDigits (Before.ofReversed written) '\''
        (doubleQuotes body ++ '\'' :: rest) _ rest :=
      .stringLiteral (by rw [hmark]; exact afterQuote?_doubleQuotes body hafter)
    rw [hmark] at hread
    exact ⟨doubleQuotes body ++ ['\''], rfl,
      by simpa [Quotation.mark, Quotation.piece] using hread⟩
  | @escapeString body hbody =>
    have hmark : (Before.ofReversed written).escapeMark = true := hbefore
    have hread :
        Reads replaceDigits (Before.ofReversed written) '\'' (body ++ '\'' :: rest) _ rest :=
      .stringLiteral (by rw [hmark]; exact afterQuote?_escapeBody hbody hafter)
    rw [hmark] at hread
    exact ⟨body ++ ['\''], rfl, by simpa [Quotation.mark, Quotation.piece] using hread⟩
  | @dollarQuoted tag body htag hdigit hfirst =>
    refine ⟨tag ++ ['$'] ++ body ++ tagDelimiter tag, rfl, ?_⟩
    have hstop : ¬ isTagChar '$' = true := Bool.false_ne_true
    have htext : tag ++ ['$'] ++ body ++ tagDelimiter tag ++ rest =
        tag ++ '$' :: (body ++ (tagDelimiter tag ++ rest)) := by simp
    rw [htext]
    refine .dollarQuoted hbefore ?_ ((List.dropWhile_append_of_pos htag).trans
      (List.dropWhile_cons_of_neg hstop)) ?_
    · cases tag with
      | nil => rfl
      | cons c tag => simpa using hdigit
    · rw [List.takeWhile_append_of_pos htag, List.takeWhile_cons_of_neg hstop, List.append_nil]
      exact afterFirst?_append (List.cons_ne_nil _ _) hfirst

/-- The text between the delimiters of a literal never influences what is left of a statement. If
the scan looks for a lexeme at the front of a literal, then another literal of the same kind in its
place gives the same outcome: the same redacted statement with the same tables and commands, or the
same failure equally far from the end. -/
theorem redact_replace_literal (document before after : String) (quotation : Quotation)
    (literal literal' : String) (h : IsLiteral quotation literal.toList)
    (h' : IsLiteral quotation literal'.toList) (hafter : quotation.CanPrecede after.toList)
    (hreach : ∀ options, Options.parse? document = some options → ∃ written,
      Reaches options.replaceDigits (before ++ literal ++ after).toList written
        (literal ++ after).toList ∧ quotation.CanFollow written) :
    (redact document (before ++ literal ++ after)).mapError
        (Failure.fromEnd (before ++ literal ++ after).length) =
      (redact document (before ++ literal' ++ after)).mapError
        (Failure.fromEnd (before ++ literal' ++ after).length) := by
  refine mapError_fromEnd_redact fun options hoptions => ?_
  obtain ⟨written, hreach, hbefore⟩ := hreach options hoptions
  obtain ⟨more, hmore, hread⟩ := h.reads options.replaceDigits hbefore hafter
  obtain ⟨more', hmore', hread'⟩ := h'.reads options.replaceDigits hbefore hafter
  simp only [String.toList_append, hmore, hmore', List.append_assoc, List.cons_append] at hreach ⊢
  -- the literal stands at the very place that the scan has come to, so nothing is left before it
  have hreach' := @Reaches.replace_rest options.replaceDigits quotation.mark before.toList []
    (more ++ after.toList) (more' ++ after.toList) written quotation.isStop_mark hreach
  exact ⟨quotation.piece.appendTo written, after.toList, hreach.step hread, hreach'.step hread'⟩

/-- The escape strings `'it\'s'` and `'x''y'` leave the same of a statement. -/
theorem redact_replace_escapeString :
    (redact "" ("a = e" ++ "'it\\'s'" ++ " -- 1")).mapError (Failure.fromEnd 17) =
      (redact "" ("a = e" ++ "'x''y'" ++ " -- 1")).mapError (Failure.fromEnd 16) := by
  have hbody : IsEscapeBody ['i', 't', '\\', '\'', 's'] :=
    .plain (by decide) (by decide) (.plain (by decide) (by decide)
      (.escaped (.plain (by decide) (by decide) .nil)))
  have hbody' : IsEscapeBody ['x', '\'', '\'', 'y'] :=
    .plain (by decide) (by decide) (.doubled (.plain (by decide) (by decide) .nil))
  have hafter : Quotation.CanPrecede " -- 1".toList .escapeString := by
    change " -- 1".toList.head? ≠ some '\''
    decide
  refine redact_replace_literal "" "a = e" " -- 1" .escapeString "'it\\'s'" "'x''y'"
    (.escapeString hbody) (.escapeString hbody') hafter fun options hoptions => ?_
  obtain rfl : Options.default = options := Option.some.inj hoptions
  have hreach : Reaches false ("a = e" ++ "'it\\'s'" ++ " -- 1").toList "e = a".toList
      ("'it\\'s'" ++ " -- 1").toList :=
    reaches_iff_exists_place?.mpr ⟨5, by decide⟩
  exact ⟨"e = a".toList, hreach, rfl⟩

end Redaction

end QueryTelemetry
