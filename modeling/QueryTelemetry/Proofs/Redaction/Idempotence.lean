import QueryTelemetry.Proofs.Redaction.Collapse
import QueryTelemetry.Proofs.Redaction.Written

/-!
# A redacted statement stays as it is

What is left of a statement is settled, has no blanks at its ends and no lists of question marks. So
the redaction changes nothing in it when it is applied again (`redact_redact`), and outside quoted
identifiers nothing begins in it that would be replaced.
-/

namespace QueryTelemetry

namespace Redaction

variable {replaceDigits : Bool} {p : Place} {c : Char} {text front rest : List Char}

/-! ### Nothing is left to replace -/

/-- Whether a text ends in a character of a word. -/
def endsInWord (text : List Char) : Bool := text.getLast?.any isWordChar

/-- Nothing that is replaced begins with the character `c` between `front` and `rest`: no string, no
comment, no dollar-quoted string and no number. If digits within words are replaced, only those of a
parameter are left. -/
structure Inert (replaceDigits : Bool) (front : List Char) (c : Char) (rest : List Char) :
    Prop where
  no_string : c ≠ '\''
  no_lineComment : ¬ ['-', '-'] <+: c :: rest
  no_blockComment : ¬ ['/', '*'] <+: c :: rest
  no_dollarQuoted : endsInWord front = false → ∀ tag : List Char, (∀ x ∈ tag, isTagChar x = true) →
    tag.head?.any Char.isDigit = false → ¬ tagDelimiter tag <+: c :: rest
  no_number : c.isDigit = true → endsInWord front = true ∧
    (replaceDigits = true → ∃ before digits, front = before ++ '$' :: digits ∧
      endsInWord before = false ∧ ∀ d ∈ digits, d.isDigit = true)

theorem Place.after_last (p : Place) (text : List Char) :
    (p.after text).last = text.getLast?.or p.last := by
  induction text generalizing p with
  | nil => rfl
  | cons c text ih =>
    rw [Place.after_cons, ih, List.getLast?_cons]
    cases text.getLast? <;> rfl

theorem Place.inWord_after_start (text : List Char) :
    (Place.start.after text).inWord = endsInWord text := by
  rw [Place.inWord, Place.after_last, Place.start, Option.or_none, endsInWord]

/-- A parameter goes on at the end of a text only if the text ends in its dollar and digits. -/
theorem Place.exists_of_inParameter_after (h : (p.after text).inParameter = true) :
    (∃ before digits, text = before ++ '$' :: digits ∧ (p.after before).inWord = false ∧
      ∀ d ∈ digits, d.isDigit = true) ∨
    p.inParameter = true ∧ ∀ d ∈ text, d.isDigit = true := by
  induction text generalizing p with
  | nil => exact .inr ⟨h, fun d hd => by simp at hd⟩
  | cons c text ih =>
    rcases ih h with ⟨before, digits, rfl, hword, hdigits⟩ | ⟨hnext, hdigits⟩
    · exact .inl ⟨c :: before, digits, rfl, hword, hdigits⟩
    · by_cases hc : c = '$'
      · subst hc
        exact .inl ⟨[], text, rfl, by simpa [Place.next] using hnext, hdigits⟩
      · obtain ⟨digit, hparameter⟩ : c.isDigit = true ∧ p.inParameter = true := by
          simpa [Place.next, hc] using hnext
        exact .inr ⟨hparameter, by simpa using ⟨digit, hdigits⟩⟩

/-- Where a character stands for itself, nothing begins that is replaced. -/
theorem Stands.inert (h : Stands replaceDigits (Place.start.after front) c rest) :
    Inert replaceDigits front c rest where
  no_string := h.ne_quote
  no_lineComment := by
    rintro ⟨more, hmore⟩
    obtain ⟨rfl, rfl⟩ : '-' = c ∧ '-' :: more = rest := by simpa using hmore
    exact h.head_of_dash rfl rfl
  no_blockComment := by
    rintro ⟨more, hmore⟩
    obtain ⟨rfl, rfl⟩ : '/' = c ∧ '*' :: more = rest := by simpa using hmore
    exact h.head_of_slash rfl rfl
  no_dollarQuoted := by
    rintro hword tag htag hdigit ⟨more, hmore⟩
    obtain ⟨rfl, rfl⟩ : '$' = c ∧ tag ++ '$' :: more = rest := by
      simpa [tagDelimiter] using hmore
    rw [← Place.inWord_after_start] at hword
    -- the tag does not begin with a digit, so a dollar would have to be missing behind it
    rcases h.tag_of_dollar rfl hword with digit | unopened
    · cases tag with
      | nil => cases digit
      | cons x tag =>
        rw [List.head?_cons] at hdigit
        rw [List.cons_append, List.head?_cons, hdigit] at digit
        cases digit
    · rw [List.dropWhile_append_of_pos htag, List.dropWhile_cons_of_neg (by decide)] at unopened
      exact unopened rfl
  no_number := fun digit => by
    obtain ⟨hword, hkeep⟩ := h.place_of_digit digit
    refine ⟨by rwa [Place.inWord_after_start] at hword, fun hreplace => ?_⟩
    rcases Place.exists_of_inParameter_after (hkeep hreplace) with
      ⟨before, digits, rfl, hbefore, hdigits⟩ | ⟨hstart, -⟩
    · exact ⟨before, digits, rfl, by rwa [Place.inWord_after_start] at hbefore, hdigits⟩
    · cases hstart

/-- Outside the quoted identifiers of a settled text nothing begins that is replaced. -/
theorem Settled.inert (h : Settled replaceDigits false Place.start (front ++ c :: rest))
    (hquotes : front.count '"' % 2 = 0) : Inert replaceDigits front c rest := by
  by_cases hc : c = '"'
  · subst hc
    exact (Stands.of_plain (by decide) (by decide) (by decide) (by decide) rfl rfl).inert
  · exact (h.stands hc (by simp [hquotes])).inert

/-! ### The second redaction -/

/-- What is left of a statement. -/
structure IsStripped (replaceDigits : Bool) (text : List Char) : Prop where
  settled : Settled replaceDigits false Place.start text
  no_blank : text.getLast?.any Text.isBlank = false
  no_list : ¬ twoMarks [','] <:+: text
  no_spacedList : ¬ twoMarks [',', ' '] <:+: text

theorem isStripped_of_strip {statement : List Char} (h : strip replaceDigits statement = .ok text) :
    IsStripped replaceDigits text := by
  rw [strip] at h
  cases hscan : scan replaceDigits statement.length [] statement with
  | error u =>
    rw [hscan] at h
    cases h
  | ok written =>
    rw [hscan] at h
    obtain rfl := Except.ok.inj h
    have hsettled := settled_of_scan hscan
    refine ⟨?_, ?_, not_infix_collapse _ _, ?_⟩
    · exact (hsettled.trim.collapse (by decide)).collapse (by decide)
    · rw [getLast?_collapse, getLast?_collapse, Text.trim]
      exact any_getLast?_trimEnd _
    · exact not_infix_collapse_of_not_infix (by decide) (not_infix_collapse _ _)

/-- What is left of a statement stays as it is. -/
theorem IsStripped.strip_eq (h : IsStripped replaceDigits text) :
    strip replaceDigits text = .ok text := by
  have hscan : scan replaceDigits text.length [] text = .ok (text.reverse ++ []) :=
    h.settled.scan_eq fun _ => rfl
  have htrim : Text.trim text = text := by
    rw [Text.trim, dropWhile_eq_self h.settled.any_head?, trimEnd_eq_self h.no_blank]
  rw [strip, hscan]
  simp only [Except.map, List.append_nil, List.reverse_reverse]
  rw [htrim, collapse_eq_self h.no_spacedList, collapse_eq_self h.no_list]

/-- A redacted statement is what is left of a statement, and its tables and commands are those of
its own text. -/
theorem exists_strip_of_redactWith {options : Options} {statement : String} {redacted : Redacted}
    (h : redactWith options statement = .ok redacted) :
    strip options.replaceDigits statement.toList = .ok redacted.text.toList ∧
      ∀ other : String, strip options.replaceDigits other.toList = .ok redacted.text.toList →
        redactWith options other = .ok redacted := by
  unfold redactWith at h
  split at h
  · cases h
  · cases h
  · rename_i text hne hstrip
    obtain rfl := Except.ok.inj h
    refine ⟨by simpa using hstrip, fun other hother => ?_⟩
    rw [String.toList_ofList] at hother
    unfold redactWith
    rw [hother]
    cases text with
    | nil => exact absurd rfl hne
    | cons c rest => rfl

/-- Redaction is idempotent: a statement that has been redacted is redacted to itself, with the same
tables and commands, and outside its quoted identifiers nothing begins that would be replaced. -/
theorem redact_redact (document statement : String) (redacted : Redacted)
    (h : redact document statement = .ok redacted) :
    redact document redacted.text = .ok redacted ∧
      ∃ options, Options.parse? document = some options ∧
        ∀ front c rest, redacted.text.toList = front ++ c :: rest → front.count '"' % 2 = 0 →
          Inert options.replaceDigits front c rest := by
  unfold redact at h ⊢
  split at h
  · cases h
  · rename_i options hoptions
    obtain ⟨hstrip, hsame⟩ := exists_strip_of_redactWith h
    have hstripped := isStripped_of_strip hstrip
    simp only [hoptions]
    refine ⟨hsame _ hstripped.strip_eq, options, rfl, fun front c rest htext hquotes => ?_⟩
    have hsettled := hstripped.settled
    rw [htext] at hsettled
    exact hsettled.inert hquotes

/-- The statement `VALUES (1, 'x') -- y` becomes `VALUES (?)`, and so does that. -/
theorem redact_redact_values :
    ∃ redacted, redact "" "VALUES (1, 'x') -- y" = .ok redacted ∧ redacted.text = "VALUES (?)" ∧
      redact "" "VALUES (?)" = .ok redacted := by
  have hstrip : strip false "VALUES (1, 'x') -- y".toList = .ok "VALUES (?)".toList := by
    have hreach : Reaches false "VALUES (1, 'x') -- y".toList " )? ,?( SEULAV".toList [] :=
      reaches_iff_exists_place?.mpr ⟨15, by decide⟩
    rw [strip, hreach.scan_eq, scan_nil]
    rfl
  have hredact : ∃ mentions, redact "" "VALUES (1, 'x') -- y" = .ok ⟨"VALUES (?)", mentions⟩ := by
    have hoptions : Options.parse? "" = some Options.default := rfl
    simp only [redact, redactWith, hoptions]
    rw [show Options.default.replaceDigits = false from rfl, hstrip]
    exact ⟨_, rfl⟩
  obtain ⟨mentions, hredact⟩ := hredact
  exact ⟨_, hredact, rfl, (redact_redact _ _ _ hredact).1⟩

end Redaction

end QueryTelemetry
