import QueryTelemetry.Proofs.Redaction.Lists

/-!
# The grammar of statements

A statement is a sequence of tokens: strings, quoted identifiers, comments, dollar-quoted strings,
parameters, numbers, runs of blanks and single characters. `IsToken` says what each of them looks
like, by what stands between its delimiters and not by how a reader goes through it. Strings with
escapes, parameters, dollar-quoted strings and numbers begin outside of words only, so what begins
at some place depends on the token before it, but on nothing else. `Tokenizes` reads a statement
token by token, each as far as it goes.

Every statement can be read to its end or up to a delimiter that nothing closes
(`exists_tokenizes`).
-/

namespace QueryTelemetry

namespace Redaction

/-! ### What tokens look like -/

/-- What may stand between two quotes: other characters than the quote, doubled quotes, and, if
backslashes are escapes, backslashes with the characters after them. -/
inductive IsQuotedBody (quote : Char) (escapes : Bool) : List Char → Prop
  | nil : IsQuotedBody quote escapes []
  | plain {c : Char} {rest : List Char} :
      c ≠ quote → (escapes = true → c ≠ '\\') → IsQuotedBody quote escapes rest →
      IsQuotedBody quote escapes (c :: rest)
  | doubled {rest : List Char} :
      IsQuotedBody quote escapes rest → IsQuotedBody quote escapes (quote :: quote :: rest)
  | escaped {c : Char} {rest : List Char} :
      escapes = true → IsQuotedBody quote escapes rest →
      IsQuotedBody quote escapes ('\\' :: c :: rest)

/-- Behind `body` the delimiter stands for the first time. -/
def ClosesFirst (delimiter body : List Char) : Prop :=
  ∀ front back, body ++ delimiter = front ++ delimiter ++ back → body.length ≤ front.length

/-- Digits and points that begin with a digit, and maybe an exponent. -/
inductive IsNumeral : List Char → Prop
  | mk {first : Char} {mantissa exponent : List Char} :
      first.isDigit = true → (∀ c ∈ mantissa, isDigitOrPoint c = true) → IsExponent exponent →
      IsNumeral (first :: (mantissa ++ exponent))

/-- What begins outside of words only: an escape string, a parameter, a dollar-quoted string or a
number stands at the front of the text. -/
inductive BeginsOutside : List Char → Prop
  | escapeString {mark : Char} {rest : List Char} :
      mark = 'E' ∨ mark = 'e' → BeginsOutside (mark :: '\'' :: rest)
  | parameter {d : Char} {rest : List Char} : d.isDigit = true → BeginsOutside ('$' :: d :: rest)
  | dollarQuoted {tag rest : List Char} :
      (∀ c ∈ tag, isTagChar c = true) → tag.head?.any Char.isDigit = false →
      BeginsOutside (tagDelimiter tag ++ rest)
  | number {d : Char} {rest : List Char} : d.isDigit = true → BeginsOutside (d :: rest)

/-- Something else than a single character stands at the front of the text. The flag says whether
that place is outside of words. -/
inductive Begins (free : Bool) : List Char → Prop
  | standardString {rest : List Char} : Begins free ('\'' :: rest)
  | quotedIdentifier {rest : List Char} : Begins free ('"' :: rest)
  | lineComment {rest : List Char} : Begins free ('-' :: '-' :: rest)
  | blockComment {rest : List Char} : Begins free ('/' :: '*' :: rest)
  | blanks {c : Char} {rest : List Char} : Text.isBlank c = true → Begins free (c :: rest)
  | outside {text : List Char} : free = true → BeginsOutside text → Begins free text

/-- A part of a statement, with its text. -/
inductive Token
  | standardString (text : List Char)
  | escapeString (text : List Char)
  | dollarQuoted (text : List Char)
  | number (text : List Char)
  | quotedIdentifier (text : List Char)
  | parameter (text : List Char)
  | lineComment (text : List Char)
  | blockComment (text : List Char)
  | blanks (text : List Char)
  | character (c : Char)
  deriving DecidableEq, Repr

namespace Token

/-- The text of a token. -/
def text : Token → List Char
  | standardString text | escapeString text | dollarQuoted text | number text => text
  | quotedIdentifier text | parameter text | lineComment text | blockComment text => text
  | blanks text => text
  | character c => [c]

/-- Whether a token is a comment or a run of blanks. -/
def isGap : Token → Bool
  | lineComment _ | blockComment _ | blanks _ => true
  | _ => false

/-- Whether the place behind a token is outside of words: the token is neither a parameter nor a
single character of a word. -/
def free : Token → Bool
  | parameter _ => false
  | character c => !isWordChar c
  | _ => true

end Token

/-- The token stands in front of `rest`, and it goes no further. The flag says whether it stands
outside of words. -/
inductive IsToken : (free : Bool) → Token → (rest : List Char) → Prop
  | standardString {free : Bool} {body rest : List Char} :
      IsQuotedBody '\'' false body → rest.head? ≠ some '\'' →
      IsToken free (.standardString ('\'' :: (body ++ ['\'']))) rest
  | escapeString {mark : Char} {body rest : List Char} :
      mark = 'E' ∨ mark = 'e' → IsQuotedBody '\'' true body → rest.head? ≠ some '\'' →
      IsToken true (.escapeString (mark :: '\'' :: (body ++ ['\'']))) rest
  | dollarQuoted {tag body rest : List Char} :
      (∀ c ∈ tag, isTagChar c = true) → tag.head?.any Char.isDigit = false →
      ClosesFirst (tagDelimiter tag) body →
      IsToken true (.dollarQuoted (tagDelimiter tag ++ (body ++ tagDelimiter tag))) rest
  | number {numeral rest : List Char} :
      IsNumeral numeral →
      (∀ more back, rest = more ++ back → IsNumeral (numeral ++ more) → more = []) →
      IsToken true (.number numeral) rest
  | quotedIdentifier {free : Bool} {body rest : List Char} :
      IsQuotedBody '"' false body → rest.head? ≠ some '"' →
      IsToken free (.quotedIdentifier ('"' :: (body ++ ['"']))) rest
  | parameter {digits rest : List Char} :
      IsDigits digits → rest.head?.any Char.isDigit = false →
      IsToken true (.parameter ('$' :: digits)) rest
  | lineComment {free : Bool} {body rest : List Char} :
      '\n' ∉ body → (rest = [] ∨ rest.head? = some '\n') →
      IsToken free (.lineComment ('-' :: '-' :: body)) rest
  | blockComment {free : Bool} {body rest : List Char} :
      ClosesFirst ['*', '/'] body →
      IsToken free (.blockComment ('/' :: '*' :: (body ++ ['*', '/']))) rest
  | blanks {free : Bool} {blanks rest : List Char} :
      blanks ≠ [] → (∀ c ∈ blanks, Text.isBlank c = true) → rest.head?.any Text.isBlank = false →
      IsToken free (.blanks blanks) rest
  | character {free : Bool} {c : Char} {rest : List Char} :
      ¬ Begins free (c :: rest) → IsToken free (.character c) rest

/-- A token begins at the front of the text, and nothing in the text closes it. An escape string
begins `offset` characters before its quote. -/
inductive Unclosed (free : Bool) : Delimited → (offset : Nat) → (text : List Char) → Prop
  | standardString {rest : List Char} :
      (∀ body after, IsQuotedBody '\'' false body → rest = body ++ '\'' :: after →
        after.head? = some '\'') →
      Unclosed free .stringLiteral 0 ('\'' :: rest)
  | escapeString {mark : Char} {rest : List Char} :
      free = true → mark = 'E' ∨ mark = 'e' →
      (∀ body after, IsQuotedBody '\'' true body → rest = body ++ '\'' :: after →
        after.head? = some '\'') →
      Unclosed free .stringLiteral 1 (mark :: '\'' :: rest)
  | quotedIdentifier {rest : List Char} :
      (∀ body after, IsQuotedBody '"' false body → rest = body ++ '"' :: after →
        after.head? = some '"') →
      Unclosed free .quotedIdentifier 0 ('"' :: rest)
  | comment {rest : List Char} :
      ¬ ['*', '/'] <:+: rest → Unclosed free .comment 0 ('/' :: '*' :: rest)
  | dollarQuoted {tag rest : List Char} :
      free = true → (∀ c ∈ tag, isTagChar c = true) → tag.head?.any Char.isDigit = false →
      ¬ tagDelimiter tag <:+: rest → Unclosed free .dollarQuoted 0 (tagDelimiter tag ++ rest)

/-- The text is read from its front as the tokens, and `rest` follows them. The flags say whether
the text and `rest` begin outside of words. -/
inductive Tokenizes :
    (free : Bool) → (text : List Char) → List Token → (free' : Bool) → (rest : List Char) → Prop
  | done {free : Bool} {text : List Char} : Tokenizes free text [] free text
  | token {free free' : Bool} {token : Token} {tokens : List Token} {after rest : List Char} :
      IsToken free token after → Tokenizes token.free after tokens free' rest →
      Tokenizes free (token.text ++ after) (token :: tokens) free' rest

variable {text after rest : List Char} {free free' : Bool} {quote c : Char} {escapes : Bool}

/-! ### Where tokens begin -/

/-- A dollar with a tag and another dollar behind it begins a dollar-quoted string. -/
theorem BeginsOutside.of_tag (hdigit : rest.head?.any Char.isDigit = false)
    (htag : (rest.dropWhile isTagChar).head? = some '$') : BeginsOutside ('$' :: rest) := by
  obtain ⟨body, hbody⟩ := List.head?_eq_some_iff.mp htag
  have hrest : rest = rest.takeWhile isTagChar ++ '$' :: body := by
    rw [← hbody, List.takeWhile_append_dropWhile]
  have hchars : ∀ d ∈ rest.takeWhile isTagChar, isTagChar d = true :=
    fun d hd => List.all_eq_true.mp List.all_takeWhile d hd
  generalize rest.takeWhile isTagChar = tag at hrest hchars
  subst hrest
  have hhead : tag.head?.any Char.isDigit = false := by
    cases tag with
    | nil => rfl
    | cons d tag => exact hdigit
  have htext : '$' :: (tag ++ '$' :: body) = tagDelimiter tag ++ body := by simp [tagDelimiter]
  rw [htext]
  exact .dollarQuoted hchars hhead

/-- A check for what begins outside of words only. -/
def beginsOutside : List Char → Bool
  | [] => false
  | c :: rest =>
    c.isDigit || (c == 'E' || c == 'e') && rest.head? == some '\'' ||
      c == '$' && (rest.head?.any Char.isDigit || (rest.dropWhile isTagChar).head? == some '$')

theorem beginsOutside_iff : BeginsOutside text ↔ beginsOutside text = true := by
  constructor
  · intro h
    cases h with
    | escapeString hmark => simp [beginsOutside, hmark]
    | parameter digit => simp [beginsOutside, digit]
    | @dollarQuoted tag rest htag _ =>
      have hdrop : (tag ++ '$' :: rest).dropWhile isTagChar = '$' :: rest :=
        dropWhile_append_of_forall htag rfl
      simp [tagDelimiter, beginsOutside, hdrop]
    | number digit => simp [beginsOutside, digit]
  · intro h
    cases text with
    | nil => cases h
    | cons c rest =>
      simp only [beginsOutside, Bool.or_eq_true, Bool.and_eq_true, beq_iff_eq] at h
      rcases h with (digit | ⟨hmark, hquote⟩) | ⟨rfl, hrest⟩
      · exact .number digit
      · obtain ⟨rest, rfl⟩ := List.head?_eq_some_iff.mp hquote
        exact .escapeString hmark
      · by_cases digit : rest.head?.any Char.isDigit = true
        · cases rest with
          | nil => cases digit
          | cons d rest => exact .parameter digit
        · exact .of_tag (by simpa using digit) (hrest.resolve_left digit)

instance : DecidablePred BeginsOutside := fun _ => decidable_of_iff _ beginsOutside_iff.symm

/-- A check for what begins at some place. -/
def begins (free : Bool) : List Char → Bool
  | [] => false
  | c :: rest =>
    c == '\'' || c == '"' || c == '-' && rest.head? == some '-' ||
      c == '/' && rest.head? == some '*' || Text.isBlank c || free && beginsOutside (c :: rest)

theorem begins_iff : Begins free text ↔ begins free text = true := by
  constructor
  · intro h
    cases h with
    | standardString | quotedIdentifier | lineComment | blockComment => simp [begins]
    | blanks hblank => simp [begins, hblank]
    | outside hfree houtside =>
      have hcheck := beginsOutside_iff.mp houtside
      cases text with
      | nil => cases hcheck
      | cons c rest => simp [begins, hfree, hcheck]
  · intro h
    cases text with
    | nil => cases h
    | cons c rest =>
      simp only [begins, Bool.or_eq_true, Bool.and_eq_true, beq_iff_eq] at h
      rcases h with ((((rfl | rfl) | ⟨rfl, hdash⟩) | ⟨rfl, hstar⟩) | hblank) | ⟨hfree, hcheck⟩
      · exact .standardString
      · exact .quotedIdentifier
      · obtain ⟨rest, rfl⟩ := List.head?_eq_some_iff.mp hdash
        exact .lineComment
      · obtain ⟨rest, rfl⟩ := List.head?_eq_some_iff.mp hstar
        exact .blockComment
      · exact .blanks hblank
      · exact .outside hfree (beginsOutside_iff.mpr hcheck)

instance (free : Bool) : DecidablePred (Begins free) := fun _ => decidable_of_iff _ begins_iff.symm

/-! ### Quoted texts -/

/-- What the reader takes for a quoted text is one. -/
theorem exists_isQuotedBody_of_afterQuote? (h : afterQuote? quote escapes text = some after) :
    ∃ body, IsQuotedBody quote escapes body ∧ text = body ++ quote :: after ∧
      after.head? ≠ some quote := by
  fun_induction afterQuote? quote escapes text with
  | case1 => cases h
  | case2 => cases h
  | case3 =>
    obtain rfl := Option.some.inj h
    exact ⟨[], .nil, rfl, by simp⟩
  | case4 => cases h
  | case5 c d rest hescape ih =>
    obtain ⟨body, hbody, rfl, hafter⟩ := ih h
    obtain ⟨rfl, rfl⟩ : escapes = true ∧ c = '\\' := by simpa using hescape
    exact ⟨'\\' :: d :: body, .escaped rfl hbody, rfl, hafter⟩
  | case6 rest _ ih =>
    obtain ⟨body, hbody, rfl, hafter⟩ := ih h
    exact ⟨quote :: quote :: body, .doubled hbody, rfl, hafter⟩
  | case7 d rest hd =>
    obtain rfl := Option.some.inj h
    exact ⟨[], .nil, rfl, by simpa using hd⟩
  | case8 c d rest hescape hc ih =>
    obtain ⟨body, hbody, hrest, hafter⟩ := ih h
    refine ⟨c :: body, .plain hc ?_ hbody, by rw [hrest, List.cons_append], hafter⟩
    rintro rfl rfl
    exact hescape rfl

/-- A quoted text is read up to its closing quote. -/
theorem IsQuotedBody.afterQuote? {body : List Char} (h : IsQuotedBody quote escapes body)
    (hquote : quote ≠ '\\') (hafter : after.head? ≠ some quote) :
    afterQuote? quote escapes (body ++ quote :: after) = some after := by
  have hescape : (escapes && quote == '\\') = false := by simp [hquote]
  induction h with
  | nil => exact afterQuote?_closed hescape hafter
  | @plain c rest hc hplain _ ih =>
    have hkept : (escapes && c == '\\') = false := by
      cases escapes with
      | false => rfl
      | true => simpa using hplain rfl
    rw [List.cons_append, afterQuote?_cons hkept hc, ih]
  | doubled _ ih => rw [List.cons_append, List.cons_append, afterQuote?_doubled hescape, ih]
  | escaped hescapes _ ih =>
    rw [List.cons_append, List.cons_append, Redaction.afterQuote?, if_pos (by simp [hescapes]), ih]

/-- Where the reader finds no closing quote there is none. -/
theorem head?_of_afterQuote?_eq_none (hquote : quote ≠ '\\')
    (h : afterQuote? quote escapes text = none) {body : List Char}
    (hbody : IsQuotedBody quote escapes body) (htext : text = body ++ quote :: after) :
    after.head? = some quote := by
  by_contra hafter
  rw [htext, hbody.afterQuote? hquote hafter] at h
  cases h

/-- Without a closing quote the reader finds none. -/
theorem afterQuote?_eq_none
    (h : ∀ body after, IsQuotedBody quote escapes body → text = body ++ quote :: after →
      after.head? = some quote) : afterQuote? quote escapes text = none := by
  cases hfound : afterQuote? quote escapes text with
  | none => rfl
  | some after =>
    obtain ⟨body, hbody, htext, hafter⟩ := exists_isQuotedBody_of_afterQuote? hfound
    exact absurd (h body after hbody htext) hafter

/-- A quoted text is closed in front of something that does not double its quote, or nowhere. -/
theorem exists_isQuotedBody_or_open (quote : Char) (escapes : Bool) (text : List Char) :
    (∃ body after, IsQuotedBody quote escapes body ∧ text = body ++ quote :: after ∧
      after.head? ≠ some quote) ∨
    ∀ body after, IsQuotedBody quote escapes body → text = body ++ quote :: after →
      after.head? = some quote := by
  by_cases hclosed : ∃ body after, IsQuotedBody quote escapes body ∧
      text = body ++ quote :: after ∧ after.head? ≠ some quote
  · exact .inl hclosed
  · refine .inr fun body after hbody htext => ?_
    by_contra hafter
    exact hclosed ⟨body, after, hbody, htext, hafter⟩

/-! ### Delimiters -/

/-- What the reader takes for the first occurrence is it. -/
theorem exists_closesFirst_of_afterFirst? {delimiter : List Char} (hne : delimiter ≠ [])
    (h : Text.afterFirst? delimiter text = some after) :
    ∃ body, text = body ++ (delimiter ++ after) ∧ ClosesFirst delimiter body := by
  induction text with
  | nil => simp [Text.afterFirst?, hne] at h
  | cons c text ih =>
    rw [Text.afterFirst?] at h
    split at h
    · rename_i found
      obtain ⟨more, hmore⟩ := List.isPrefixOf_iff_prefix.mp found
      rw [← hmore, List.drop_left, Option.some.injEq] at h
      refine ⟨[], by rw [← hmore, h, List.nil_append], ?_⟩
      intro front back _
      exact Nat.zero_le _
    · rename_i hnot
      obtain ⟨body, rfl, hfirst⟩ := ih h
      refine ⟨c :: body, rfl, ?_⟩
      intro front back hsplit
      cases front with
      | nil =>
        -- the delimiter would stand at the front of the text
        refine absurd (List.isPrefixOf_iff_prefix.mpr ⟨back ++ after, ?_⟩) hnot
        rw [← List.append_assoc, ← List.nil_append delimiter, ← hsplit]
        simp
      | cons d front =>
        have := hfirst front back (List.cons.inj hsplit).2
        simpa using this

/-- What occurs in a text is found. -/
theorem exists_afterFirst?_of_infix {delimiter : List Char} (h : delimiter <:+: text) :
    ∃ after, Text.afterFirst? delimiter text = some after := by
  induction text with
  | nil =>
    obtain rfl := List.eq_nil_of_infix_nil h
    exact ⟨[], rfl⟩
  | cons c text ih =>
    rw [Text.afterFirst?]
    split
    · exact ⟨_, rfl⟩
    · rename_i hnot
      refine ih ((List.infix_cons_iff.mp h).resolve_left ?_)
      exact fun hfront => hnot (List.isPrefixOf_iff_prefix.mpr hfront)

theorem afterFirst?_eq_none_iff {delimiter : List Char} :
    Text.afterFirst? delimiter text = none ↔ ¬ delimiter <:+: text := by
  constructor
  · intro h hinside
    obtain ⟨after, hafter⟩ := exists_afterFirst?_of_infix hinside
    rw [h] at hafter
    cases hafter
  · intro h
    cases hfound : Text.afterFirst? delimiter text with
    | none => rfl
    | some after =>
      obtain ⟨front, rfl⟩ := Text.exists_eq_append_of_afterFirst? hfound
      exact absurd ⟨front, after, rfl⟩ h

/-- A delimiter stands somewhere for the first time, or nowhere. -/
theorem exists_closesFirst_or_not_infix {delimiter : List Char} (hne : delimiter ≠ [])
    (text : List Char) :
    (∃ body after, text = body ++ (delimiter ++ after) ∧ ClosesFirst delimiter body) ∨
      ¬ delimiter <:+: text := by
  cases hfound : Text.afterFirst? delimiter text with
  | some after =>
    obtain ⟨body, htext, hfirst⟩ := exists_closesFirst_of_afterFirst? hne hfound
    exact .inl ⟨body, after, htext, hfirst⟩
  | none => exact .inr (afterFirst?_eq_none_iff.mp hfound)

/-! ### Numbers -/

theorem exists_isExponent_of_afterExponent (text : List Char) :
    ∃ exponent, IsExponent exponent ∧ text = exponent ++ afterExponent text := by
  cases text with
  | nil => exact ⟨[], .none, rfl⟩
  | cons mark rest =>
    rw [afterExponent]
    split
    · rename_i hexponent
      obtain ⟨hmark, hdigit⟩ := hexponent
      have hdigits : IsDigits ((afterSign rest).takeWhile Char.isDigit) := by
        refine ⟨?_, fun d hd => isDigit_of_mem_takeWhile hd⟩
        cases hrest : afterSign rest with
        | nil => simp [hrest] at hdigit
        | cons d digits =>
          rw [hrest] at hdigit
          have hd : d.isDigit = true := hdigit
          simp [List.takeWhile_cons_of_pos hd]
      have hsplit : afterSign rest =
          (afterSign rest).takeWhile Char.isDigit ++ (afterSign rest).dropWhile Char.isDigit :=
        List.takeWhile_append_dropWhile.symm
      cases rest with
      | nil => cases hdigit
      | cons sign rest =>
        by_cases hsign : sign = '+' ∨ sign = '-'
        · have hafter : afterSign (sign :: rest) = rest := if_pos hsign
          rw [hafter] at hdigits hsplit ⊢
          refine ⟨_, .signed hmark hsign hdigits, ?_⟩
          rw [List.cons_append, List.cons_append, ← hsplit]
        · have hafter : afterSign (sign :: rest) = sign :: rest := if_neg hsign
          rw [hafter] at hdigits hsplit ⊢
          refine ⟨_, .unsigned hmark hdigits, ?_⟩
          rw [List.cons_append, ← hsplit]
    · exact ⟨[], .none, rfl⟩

/-- An exponent is read at least up to its end. -/
theorem length_afterExponent_append_le {exponent : List Char} (h : IsExponent exponent)
    (hne : exponent ≠ []) : (afterExponent (exponent ++ rest)).length ≤ rest.length := by
  cases h with
  | none => exact absurd rfl hne
  | @unsigned mark digits hmark hdigits =>
    have hsign : afterSign (digits ++ rest) = digits ++ rest := by
      obtain ⟨d, more, rfl⟩ := List.exists_cons_of_ne_nil hdigits.1
      have digit : d.isDigit = true := hdigits.2 d List.mem_cons_self
      refine if_neg ?_
      rintro (rfl | rfl) <;> cases digit
    rw [List.cons_append, afterExponent, hsign, if_pos ⟨hmark, hdigits.any_head?_append rest⟩,
      List.dropWhile_append_of_pos hdigits.2]
    exact length_dropWhile_le _ _
  | @signed mark sign digits hmark hsign hdigits =>
    have hafter : afterSign (sign :: (digits ++ rest)) = digits ++ rest := if_pos hsign
    rw [List.cons_append, List.cons_append, afterExponent, hafter,
      if_pos ⟨hmark, hdigits.any_head?_append rest⟩, List.dropWhile_append_of_pos hdigits.2]
    exact length_dropWhile_le _ _

/-- A number is read at least up to its end. -/
theorem IsNumeral.length_afterNumber_le {numeral : List Char} (h : IsNumeral numeral)
    (rest : List Char) : (afterNumber (numeral ++ rest)).length ≤ rest.length := by
  obtain ⟨hfirst, hmantissa, hexponent⟩ := h
  rename_i first mantissa exponent
  have hdigits : ∀ c ∈ first :: mantissa, isDigitOrPoint c = true := by
    intro c hc
    rcases List.mem_cons.mp hc with rfl | hc
    · exact isDigitOrPoint_of_isDigit c hfirst
    · exact hmantissa c hc
  have htext : first :: (mantissa ++ exponent) ++ rest =
      first :: mantissa ++ (exponent ++ rest) := by
    simp
  rw [afterNumber, htext, List.dropWhile_append_of_pos hdigits]
  by_cases hne : exponent = []
  · subst hne
    exact (afterExponent_suffix _).length_le.trans (length_dropWhile_le _ rest)
  · have hmark : (exponent ++ rest).head?.any isDigitOrPoint = false := by
      cases hexponent with
      | none => exact absurd rfl hne
      | unsigned hmark | signed hmark => rcases hmark with rfl | rfl <;> rfl
    rw [dropWhile_eq_self hmark]
    exact length_afterExponent_append_le hexponent hne

/-- What the reader takes for a number is one, and it goes no further. -/
theorem exists_isNumeral_of_isDigit (digit : c.isDigit = true) (rest : List Char) :
    ∃ numeral, c :: rest = numeral ++ afterNumber (c :: rest) ∧ IsNumeral numeral ∧
      ∀ more back, afterNumber (c :: rest) = more ++ back → IsNumeral (numeral ++ more) →
        more = [] := by
  have hc : isDigitOrPoint c = true := isDigitOrPoint_of_isDigit c digit
  obtain ⟨exponent, hexponent, hrest⟩ :=
    exists_isExponent_of_afterExponent (rest.dropWhile isDigitOrPoint)
  have hafter : afterNumber (c :: rest) = afterExponent (rest.dropWhile isDigitOrPoint) := by
    rw [afterNumber, List.dropWhile_cons_of_pos hc]
  have htext : c :: rest =
      c :: (rest.takeWhile isDigitOrPoint ++ exponent) ++ afterNumber (c :: rest) := by
    rw [hafter, List.cons_append, List.append_assoc, ← hrest, List.takeWhile_append_dropWhile]
  refine ⟨c :: (rest.takeWhile isDigitOrPoint ++ exponent), htext, .mk digit ?_ hexponent, ?_⟩
  · intro d hd
    exact List.all_eq_true.mp List.all_takeWhile d hd
  · intro more back hsplit hlonger
    have hle := hlonger.length_afterNumber_le back
    rw [List.append_assoc, ← hsplit, ← htext, hsplit, List.length_append] at hle
    exact List.eq_nil_of_length_eq_zero (by omega)

theorem IsNumeral.exists_eq_cons {numeral : List Char} (h : IsNumeral numeral) :
    ∃ first tail, numeral = first :: tail ∧ first.isDigit = true := by
  obtain ⟨digit, -, -⟩ := h
  exact ⟨_, _, rfl, digit⟩

/-- A number that goes no further is read up to its end. -/
theorem IsNumeral.afterNumber_eq {numeral : List Char} (h : IsNumeral numeral)
    (hlongest : ∀ more back, rest = more ++ back → IsNumeral (numeral ++ more) → more = []) :
    afterNumber (numeral ++ rest) = rest := by
  have hle := h.length_afterNumber_le rest
  obtain ⟨first, tail, rfl, hfirst⟩ := h.exists_eq_cons
  obtain ⟨numeral', htext, hnumeral', -⟩ := exists_isNumeral_of_isDigit hfirst (tail ++ rest)
  rw [← List.cons_append] at htext
  generalize afterNumber (first :: tail ++ rest) = after at htext hle ⊢
  -- the reader has come at least to the end of the number, and any further it would be longer
  rcases List.append_eq_append_iff.mp htext with ⟨more, rfl, rfl⟩ | ⟨more, htail, rfl⟩
  · rw [hlongest more after rfl hnumeral', List.nil_append]
  · rw [List.length_append] at hle
    rw [List.eq_nil_of_length_eq_zero (show more.length = 0 by omega), List.nil_append]

/-! ### Every text can be read -/

theorem IsToken.text_ne_nil {token : Token} (h : IsToken free token rest) : token.text ≠ [] := by
  cases h with
  | number hnumeral => cases hnumeral with | mk => exact List.cons_ne_nil _ _
  | blanks hne => exact hne
  | _ => exact List.cons_ne_nil _ _

/-- At the front of the text a token stands, or one begins that nothing closes. -/
def IsReadable (free : Bool) (text : List Char) : Prop :=
  (∃ token after, text = token.text ++ after ∧ IsToken free token after) ∨
    ∃ kind offset, Unclosed free kind offset text

theorem IsToken.isReadable {token : Token} (h : IsToken free token after)
    (htext : text = token.text ++ after) : IsReadable free text :=
  .inl ⟨token, after, htext, h⟩

theorem Unclosed.isReadable {kind : Delimited} {offset : Nat}
    (h : Unclosed free kind offset text) : IsReadable free text :=
  .inr ⟨kind, offset, h⟩

theorem BeginsOutside.isReadable (h : BeginsOutside text) : IsReadable true text := by
  cases h with
  | @escapeString mark rest hmark =>
    rcases exists_isQuotedBody_or_open '\'' true rest with
      ⟨body, after, hbody, rfl, hafter⟩ | hopen
    · exact (IsToken.escapeString hmark hbody hafter).isReadable (by simp [Token.text])
    · exact (Unclosed.escapeString rfl hmark hopen).isReadable
  | @parameter d rest digit =>
    have hdigits : IsDigits (d :: rest.takeWhile Char.isDigit) := by
      refine ⟨List.cons_ne_nil _ _, ?_⟩
      intro c hc
      rcases List.mem_cons.mp hc with rfl | hc
      · exact digit
      · exact isDigit_of_mem_takeWhile hc
    have hend := any_head?_dropWhile Char.isDigit rest
    refine (IsToken.parameter hdigits hend).isReadable ?_
    simp [Token.text]
  | @dollarQuoted tag rest htag hdigit =>
    have hne : tagDelimiter tag ≠ [] := by simp [tagDelimiter]
    rcases exists_closesFirst_or_not_infix hne rest with ⟨body, after, rfl, hfirst⟩ | hopen
    · have htoken : IsToken true _ after := .dollarQuoted htag hdigit hfirst
      exact htoken.isReadable (by simp [Token.text])
    · exact (Unclosed.dollarQuoted rfl htag hdigit hopen).isReadable
  | @number d rest digit =>
    obtain ⟨numeral, htext, hnumeral, hlongest⟩ := exists_isNumeral_of_isDigit digit rest
    exact (IsToken.number hnumeral hlongest).isReadable htext

theorem Begins.isReadable (h : Begins free text) : IsReadable free text := by
  cases h with
  | @standardString rest =>
    rcases exists_isQuotedBody_or_open '\'' false rest with
      ⟨body, after, hbody, rfl, hafter⟩ | hopen
    · exact (IsToken.standardString hbody hafter).isReadable (by simp [Token.text])
    · exact (Unclosed.standardString hopen).isReadable
  | @quotedIdentifier rest =>
    rcases exists_isQuotedBody_or_open '"' false rest with
      ⟨body, after, hbody, rfl, hafter⟩ | hopen
    · exact (IsToken.quotedIdentifier hbody hafter).isReadable (by simp [Token.text])
    · exact (Unclosed.quotedIdentifier hopen).isReadable
  | @lineComment rest =>
    have hbody : '\n' ∉ rest.takeWhile (· != '\n') := by
      intro hmem
      have := List.all_eq_true.mp List.all_takeWhile _ hmem
      simp at this
    have hend : rest.dropWhile (· != '\n') = [] ∨
        (rest.dropWhile (· != '\n')).head? = some '\n' := by
      have hstop := any_head?_dropWhile (· != '\n') rest
      cases hrest : rest.dropWhile (· != '\n') with
      | nil => exact .inl rfl
      | cons c more =>
        rw [hrest] at hstop
        exact .inr (by simpa using hstop)
    refine (IsToken.lineComment hbody hend).isReadable ?_
    simp [Token.text]
  | @blockComment rest =>
    rcases exists_closesFirst_or_not_infix (List.cons_ne_nil '*' ['/']) rest with
      ⟨body, after, rfl, hfirst⟩ | hopen
    · have htoken : IsToken free _ after := .blockComment hfirst
      exact htoken.isReadable (by simp [Token.text])
    · exact (Unclosed.comment hopen).isReadable
  | @blanks c rest hblank =>
    have hblanks : ∀ d ∈ c :: rest.takeWhile Text.isBlank, Text.isBlank d = true := by
      intro d hd
      rcases List.mem_cons.mp hd with rfl | hd
      · exact hblank
      · exact List.all_eq_true.mp List.all_takeWhile d hd
    have hend := any_head?_dropWhile Text.isBlank rest
    refine (IsToken.blanks (List.cons_ne_nil _ _) hblanks hend).isReadable ?_
    simp [Token.text]
  | outside hfree houtside =>
    subst hfree
    exact houtside.isReadable

theorem isReadable_cons (free : Bool) (c : Char) (rest : List Char) :
    IsReadable free (c :: rest) := by
  by_cases h : Begins free (c :: rest)
  · exact h.isReadable
  · exact (IsToken.character h).isReadable rfl

/-- A text can be read to its end or up to a token that nothing closes. -/
theorem exists_tokenizes (free : Bool) (text : List Char) :
    ∃ tokens free' rest, Tokenizes free text tokens free' rest ∧
      (rest = [] ∨ ∃ kind offset, Unclosed free' kind offset rest) := by
  induction hn : text.length using Nat.strongRecOn generalizing free text with
  | _ n ih =>
    subst hn
    cases text with
    | nil => exact ⟨[], free, [], .done, .inl rfl⟩
    | cons c rest =>
      rcases isReadable_cons free c rest with ⟨token, after, htext, htoken⟩ | hopen
      · have hshorter : after.length < (c :: rest).length := by
          have := List.length_pos_iff.mpr htoken.text_ne_nil
          rw [htext, List.length_append]
          omega
        obtain ⟨tokens, free', rest', htokens, hend⟩ := ih _ hshorter token.free after rfl
        rw [htext]
        exact ⟨token :: tokens, free', rest', .token htoken htokens, hend⟩
      · exact ⟨[], free, c :: rest, .done, .inr hopen⟩

/-- The tokens are the text up to what follows them. -/
theorem Tokenizes.eq_append {tokens : List Token} (h : Tokenizes free text tokens free' rest) :
    text = tokens.flatMap Token.text ++ rest := by
  induction h with
  | done => rfl
  | token _ _ ih => rw [List.flatMap_cons, List.append_assoc, ← ih]

end Redaction

end QueryTelemetry
