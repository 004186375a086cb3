import QueryTelemetry.Proofs.Redaction.Origin
import QueryTelemetry.Proofs.Redaction.Tokens

/-!
# Which statements are accepted

The scan goes through a statement token by token (`Tokenizes.scan_eq`). It knows the token before
the place that it has come to by what it has written (`Aligned`), and for an escape string it needs
two steps, because it notices the string at its quote only. So a statement is refused exactly if a
token begins in it that nothing closes, or if it has gaps only (`redact_outcome_iff`). The position
in the refusal is that of the delimiter, which for an escape string is not where the string begins
(`not_unterminated_at_mark`).
-/

namespace QueryTelemetry

namespace Redaction

/-! ### What is written for tokens -/

/-- What is written for a token. The flag says whether a gap leaves a space here. -/
def Token.written (spaces : Bool) : Token → List Char
  | standardString _ | escapeString _ | dollarQuoted _ | number _ => ['?']
  | quotedIdentifier text | parameter text => text
  | lineComment _ | blockComment _ | blanks _ => if spaces then [' '] else []
  | character c => [c]

/-- What is written for a sequence of tokens. Behind another gap and at the start of a statement a
gap leaves nothing. -/
def writtenFor (spaces : Bool) : List Token → List Char
  | [] => []
  | token :: tokens => token.written spaces ++ writtenFor (!token.isGap) tokens

/-- What the scan has written, last character first, tells what it has to know in front of `text`:
whether it is outside of words, and whether a gap leaves a space. It does not take the text for the
quote of an escape string. -/
structure Aligned (free spaces : Bool) (written text : List Char) : Prop where
  inWord : (Before.ofReversed written).inWord = !free
  spaces : written.head?.any (· != ' ') = spaces
  no_escape : (Before.ofReversed written).escapeMark = true → text.head? ≠ some '\''

variable {text after rest written : List Char} {free free' spaces replaceDigits : Bool} {c : Char}
  {total : Nat} {token : Token} {tokens : List Token}

theorem aligned_start : Aligned true false [] text :=
  ⟨rfl, rfl, nofun⟩

theorem appendTo_blank (h : written.head?.any (· != ' ') = spaces) :
    Piece.blank.appendTo written = (if spaces then [' '] else []).reverse ++ written := by
  subst h
  cases written with
  | nil => rfl
  | cons d written => by_cases hd : d = ' ' <;> simp [Piece.appendTo, hd]

theorem escapeMark_eq_false_of_ne {d : Char} (hupper : d ≠ 'E') (hlower : d ≠ 'e') :
    (Before.ofReversed (d :: written)).escapeMark = false := by
  simp [Before.ofReversed, hupper, hlower]

namespace Aligned

/-- Behind a character that is neither part of a word nor a space. -/
theorem of_separator {d : Char} (hword : isWordChar d = false) (hspace : d ≠ ' ')
    (hupper : d ≠ 'E') (hlower : d ≠ 'e') : Aligned true true (d :: written) rest where
  inWord := by simpa [Before.ofReversed] using hword
  spaces := by simpa using hspace
  no_escape := by simp [escapeMark_eq_false_of_ne hupper hlower]

theorem of_space : Aligned true false (' ' :: written) rest :=
  ⟨rfl, rfl, nofun⟩

/-- Behind a gap. -/
theorem of_gap (h : Aligned free spaces written text) :
    Aligned true false ((if spaces then [' '] else []).reverse ++ written) rest := by
  have hspaces := h.spaces
  cases spaces with
  | true => exact of_space
  | false =>
    cases written with
    | nil => exact aligned_start
    | cons d written =>
      obtain rfl : d = ' ' := by simpa using hspaces
      exact of_space

/-- Behind a token. -/
theorem step (h : Aligned free spaces written (token.text ++ after))
    (htoken : IsToken free token after) :
    Aligned token.free (!token.isGap) ((token.written spaces).reverse ++ written) after := by
  cases htoken with
  | standardString | escapeString | dollarQuoted | number =>
    exact of_separator rfl (by decide) (by decide) (by decide)
  | quotedIdentifier =>
    have hwritten : ∀ body : List Char, ('"' :: (body ++ ['"'])).reverse ++ written =
        '"' :: (body.reverse ++ '"' :: written) := by simp
    rw [Token.written, hwritten]
    exact of_separator rfl (by decide) (by decide) (by decide)
  | @parameter digits _ hdigits =>
    obtain ⟨front, d, rfl, digit⟩ := hdigits.exists_eq_concat
    have hwritten : ('$' :: (front ++ [d])).reverse ++ written =
        d :: (front.reverse ++ '$' :: written) := by simp
    rw [Token.written, hwritten]
    refine ⟨by simpa [Before.ofReversed, Token.free] using isWordChar_of_isDigit digit, ?_, ?_⟩
    · have hspace : d ≠ ' ' := ne_of_isDigit digit rfl
      simpa [Token.isGap] using hspace
    · rw [escapeMark_eq_false_of_ne (ne_of_isDigit digit rfl) (ne_of_isDigit digit rfl)]
      exact fun hmark => absurd hmark Bool.false_ne_true
  | lineComment | blockComment | blanks => exact h.of_gap
  | @character _ c _ hplain =>
    have hblank : c ≠ ' ' := by
      rintro rfl
      exact hplain (.blanks rfl)
    refine ⟨by simp [Token.written, Token.free, Before.ofReversed], ?_, ?_⟩
    · simpa [Token.written, Token.isGap] using hblank
    · -- outside of words the letter would begin an escape string with a quote behind it
      intro hmark hquote
      obtain ⟨rest, rfl⟩ := List.head?_eq_some_iff.mp hquote
      obtain ⟨hletter, hword⟩ : (c = 'E' ∨ c = 'e') ∧ written.head?.any isWordChar = false := by
        simpa [Token.written, Before.ofReversed] using hmark
      have hfree : free = true := by
        have hinWord : written.head?.any isWordChar = (Before.ofReversed written).inWord := by
          cases written <;> rfl
        rw [hinWord, h.inWord] at hword
        simpa using hword
      exact hplain (.outside hfree (.escapeString hletter))

end Aligned

/-! ### The scan goes from token to token -/

/-- A single character is written as it stands, unless digits within words are replaced. -/
theorem reads_character (hword : (Before.ofReversed written).inWord = !free)
    (hplain : ¬ Begins free (c :: rest)) (hdigit : replaceDigits = true → c.isDigit = false) :
    Reads replaceDigits (Before.ofReversed written) c rest (.verbatim [c]) rest := by
  by_cases digit : c.isDigit = true
  · have hfree : free = false := by
      rw [← Bool.not_eq_true]
      exact fun hfree => hplain (.outside hfree (.number digit))
    refine .digitInWord digit (by rw [hword, hfree]; rfl) ?_
    rw [← Bool.not_eq_true]
    intro hreplace
    rw [hdigit hreplace] at digit
    cases digit
  by_cases hdollar : c = '$' ∧ free = true
  · obtain ⟨rfl, rfl⟩ := hdollar
    have hhead : rest.head?.any Char.isDigit = false := by
      cases rest with
      | nil => rfl
      | cons d rest =>
        rw [List.head?_cons, Option.any_some, ← Bool.not_eq_true]
        exact fun digit => hplain (.outside rfl (.parameter digit))
    refine .dollar hword hhead ?_
    exact fun htag => hplain (.outside rfl (.of_tag hhead htag))
  · refine .other ?_ ?_ ?_ ?_ ?_ (by simpa using digit) ?_
    · rintro rfl
      exact hplain .standardString
    · rintro rfl
      exact hplain .quotedIdentifier
    · rintro rfl hdash
      obtain ⟨more, rfl⟩ := List.head?_eq_some_iff.mp hdash
      exact hplain .lineComment
    · rintro rfl hstar
      obtain ⟨more, rfl⟩ := List.head?_eq_some_iff.mp hstar
      exact hplain .blockComment
    · rintro rfl
      have hfree : free = false := by simpa using hdollar
      rw [hword, hfree]
      rfl
    · rw [← Bool.not_eq_true]
      exact fun hblank => hplain (.blanks hblank)

/-- The mark of an escape string is written as it stands when the scan comes to it. -/
theorem scan_cons_mark {mark : Char} (hmark : mark = 'E' ∨ mark = 'e')
    (hword : (Before.ofReversed written).inWord = false) :
    scan replaceDigits total written (mark :: rest) =
        scan replaceDigits total (mark :: written) rest ∧
      (Before.ofReversed (mark :: written)).escapeMark = true := by
  have hread : Reads replaceDigits (Before.ofReversed written) mark rest (.verbatim [mark])
      rest := by
    rcases hmark with rfl | rfl
    all_goals
      refine .other (by decide) (by decide) ?_ ?_ ?_ rfl (by decide)
      all_goals
        intro hother
        cases hother
  refine ⟨scan_cons_of_reads hread, ?_⟩
  have hout : written.head?.any isWordChar = false := by
    rw [← hword]
    cases written <;> rfl
  simp only [Before.ofReversed, Bool.and_eq_true, Bool.or_eq_true, beq_iff_eq, Bool.not_eq_true']
  exact ⟨hmark, hout⟩

/-- For a run of blanks a single space is written. -/
theorem scan_blanks {blanks : List Char} (hne : blanks ≠ [])
    (hblanks : ∀ c ∈ blanks, Text.isBlank c = true) :
    scan replaceDigits total written (blanks ++ rest) =
      scan replaceDigits total (Piece.blank.appendTo written) rest := by
  induction blanks generalizing written with
  | nil => exact absurd rfl hne
  | cons c blanks ih =>
    rw [List.cons_append, scan_cons_of_reads (.blank (hblanks c List.mem_cons_self))]
    cases blanks with
    | nil => rfl
    | cons d blanks =>
      rw [ih (List.cons_ne_nil d blanks) fun e he => hblanks e (List.mem_cons_of_mem c he),
        appendTo_blank_appendTo_blank]

/-- The scan goes past a token and writes what is to be written for it. Digits within words are left
aside if they are replaced. -/
theorem Aligned.scan_token (h : Aligned free spaces written (token.text ++ after))
    (htoken : IsToken free token after)
    (hdigit : replaceDigits = true → ∀ c, token = .character c → c.isDigit = false) :
    scan replaceDigits total written (token.text ++ after) =
      scan replaceDigits total ((token.written spaces).reverse ++ written) after := by
  have hinWord := h.inWord
  cases htoken with
  | @standardString _ body _ hbody hafter =>
    have hmark : (Before.ofReversed written).escapeMark = false := by
      rw [← Bool.not_eq_true]
      exact fun hmark => h.no_escape hmark rfl
    have hread : Reads replaceDigits (Before.ofReversed written) '\'' (body ++ '\'' :: after)
        _ after :=
      .stringLiteral (by rw [hmark]; exact hbody.afterQuote? (by decide) hafter)
    rw [hmark] at hread
    simpa [Token.text, Token.written, Piece.appendTo] using scan_cons_of_reads hread
  | @escapeString mark body _ hmark hbody hafter =>
    -- the mark is written first, and at the quote the placeholder takes its place
    obtain ⟨hscan, hescape⟩ := @scan_cons_mark ('\'' :: (body ++ '\'' :: after)) written
      replaceDigits total mark hmark hinWord
    have hread : Reads replaceDigits (Before.ofReversed (mark :: written)) '\''
        (body ++ '\'' :: after) _ after :=
      .stringLiteral (by rw [hescape]; exact hbody.afterQuote? (by decide) hafter)
    rw [hescape] at hread
    simpa [Token.text, Token.written, Piece.appendTo] using
      hscan.trans (scan_cons_of_reads hread)
  | @dollarQuoted tag body _ htag hhead hfirst =>
    have hliteral : IsLiteral .dollarQuoted (tagDelimiter tag ++ body ++ tagDelimiter tag) :=
      .dollarQuoted htag hhead hfirst
    obtain ⟨more, hmore, hread⟩ := @IsLiteral.reads after _ _ written replaceDigits hliteral
      hinWord trivial
    rw [List.append_assoc] at hmore
    rw [Token.text, hmore]
    exact scan_cons_of_reads hread
  | @number numeral _ hnumeral hlongest =>
    have hend := hnumeral.afterNumber_eq hlongest
    obtain ⟨first, tail, rfl, digit⟩ := hnumeral.exists_eq_cons
    have hread : Reads replaceDigits (Before.ofReversed written) first (tail ++ after) _ _ :=
      .number digit hinWord
    rw [← List.cons_append, hend] at hread
    exact scan_cons_of_reads hread
  | @quotedIdentifier _ body _ hbody hafter =>
    have hread : Reads replaceDigits (Before.ofReversed written) '"' ((body ++ ['"']) ++ after)
        _ after :=
      .quotedIdentifier (by simpa using hbody.afterQuote? (by decide) hafter)
    exact scan_cons_of_reads hread
  | @parameter digits _ hdigits hend =>
    have hread : Reads replaceDigits (Before.ofReversed written) '$' (digits ++ after) _ _ :=
      .parameter hinWord (hdigits.any_head?_append after)
    rw [takeWhile_append_of_forall hdigits.2 hend, dropWhile_append_of_forall hdigits.2 hend]
      at hread
    exact scan_cons_of_reads hread
  | @lineComment _ body _ hbody hend =>
    have hread : Reads replaceDigits (Before.ofReversed written) '-' ('-' :: body ++ after) _ _ :=
      .lineComment rfl
    have hkept : ∀ c ∈ '-' :: body, (c != '\n') = true := by
      intro c hc
      rw [bne_iff_ne]
      rintro rfl
      exact hbody (by simpa using hc)
    have hstop : after.head?.any (· != '\n') = false := by
      rcases hend with rfl | hend
      · rfl
      · simp [hend]
    rw [dropWhile_append_of_forall hkept hstop] at hread
    rw [Token.written, ← appendTo_blank h.spaces]
    exact scan_cons_of_reads hread
  | @blockComment _ body _ hfirst =>
    have hclosed : Text.afterFirst? ['*', '/'] (body ++ (['*', '/'] ++ after)) = some after :=
      afterFirst?_append (List.cons_ne_nil _ _) hfirst
    have hread : Reads replaceDigits (Before.ofReversed written) '/'
        ('*' :: (body ++ (['*', '/'] ++ after))) .blank after :=
      .blockComment rfl hclosed
    rw [Token.written, ← appendTo_blank h.spaces]
    simpa [Token.text] using scan_cons_of_reads hread
  | @blanks _ blanks _ hne hblanks hend =>
    rw [Token.written, ← appendTo_blank h.spaces]
    exact scan_blanks hne hblanks
  | @character _ c _ hplain =>
    exact scan_cons_of_reads (reads_character hinWord hplain fun hreplace => hdigit hreplace c rfl)

/-- Behind a sequence of tokens what is to be written for them has been written. -/
theorem Tokenizes.aligned (h : Tokenizes free text tokens free' rest)
    (ha : Aligned free spaces written text) :
    ∃ spaces', Aligned free' spaces' ((writtenFor spaces tokens).reverse ++ written) rest := by
  induction h generalizing spaces written with
  | done => exact ⟨spaces, ha⟩
  | token htoken _ ih =>
    obtain ⟨spaces', hrest⟩ := ih (ha.step htoken)
    exact ⟨spaces', by simpa [writtenFor] using hrest⟩

/-- The scan goes from token to token. -/
theorem Tokenizes.scan_eq (h : Tokenizes free text tokens free' rest)
    (ha : Aligned free spaces written text) :
    scan false total written text =
      scan false total ((writtenFor spaces tokens).reverse ++ written) rest := by
  induction h generalizing spaces written with
  | done => rfl
  | @token _ _ token _ _ _ htoken _ ih =>
    have hkeep : false = true → ∀ c, token = .character c → c.isDigit = false := nofun
    rw [ha.scan_token htoken hkeep, ih (ha.step htoken)]
    simp [writtenFor]

/-- The scan fails at a token that nothing closes. -/
theorem Unclosed.scan_eq {kind : Delimited} {offset : Nat} (h : Unclosed free kind offset text)
    (ha : Aligned free spaces written text) (htotal : text.length ≤ total) :
    scan replaceDigits total written text = .error ⟨kind, total - text.length + offset⟩ := by
  cases h with
  | standardString hopen =>
    have hmark : (Before.ofReversed written).escapeMark = false := by
      rw [← Bool.not_eq_true]
      exact fun hmark => ha.no_escape hmark rfl
    refine scan_cons_of_error ?_
    simp [lexeme, hmark, afterQuote?_eq_none hopen]
  | @escapeString mark rest hfree hmark hopen =>
    obtain ⟨hscan, hescape⟩ := @scan_cons_mark ('\'' :: rest) written replaceDigits total mark hmark
      (by rw [ha.inWord, hfree]; rfl)
    rw [hscan, scan_cons_of_error (by simp [lexeme, hescape, afterQuote?_eq_none hopen]; rfl)]
    simp only [List.length_cons] at htotal ⊢
    congr 2
    omega
  | quotedIdentifier hopen =>
    refine scan_cons_of_error ?_
    simp [lexeme, afterQuote?_eq_none hopen]
  | comment hopen =>
    refine scan_cons_of_error ?_
    simp [lexeme, afterFirst?_eq_none_iff.mpr hopen]
  | @dollarQuoted tag rest hfree htag hdigit hopen =>
    have hword : (Before.ofReversed written).inWord = false := by rw [ha.inWord, hfree]; rfl
    have htext : tagDelimiter tag ++ rest = '$' :: (tag ++ '$' :: rest) := by simp [tagDelimiter]
    have hhead : (tag ++ '$' :: rest).head?.any Char.isDigit = false := by
      cases tag with
      | nil => rfl
      | cons d tag => exact hdigit
    have hdrop : (tag ++ '$' :: rest).dropWhile isTagChar = '$' :: rest :=
      dropWhile_append_of_forall htag rfl
    have htake : (tag ++ '$' :: rest).takeWhile isTagChar = tag :=
      takeWhile_append_of_forall htag rfl
    have hnone : Text.afterFirst? ('$' :: tag ++ ['$']) rest = none :=
      afterFirst?_eq_none_iff.mpr hopen
    have hdollar : dollarLexeme (tag ++ '$' :: rest) = .error .dollarQuoted := by
      rw [dollarLexeme, if_neg (by rw [hhead]; exact Bool.false_ne_true), hdrop, htake]
      simp only [hnone]
    rw [htext]
    exact scan_cons_of_error (by simp [lexeme, hword, hdollar])

/-! ### What becomes of a statement -/

theorem collapse_eq_nil_iff {separator : List Char} : collapse separator text = [] ↔ text = [] := by
  rw [← List.head?_eq_none_iff, head?_collapse, List.head?_eq_none_iff]

theorem joined_eq_nil_iff : joined text = [] ↔ text = [] := by
  rw [joined, collapse_eq_nil_iff, collapse_eq_nil_iff]

theorem trim_eq_nil_iff : Text.trim text = [] ↔ ∀ c ∈ text, Text.isBlank c = true := by
  rw [Text.trim, Text.trimEnd, List.reverse_eq_nil_iff, List.dropWhile_eq_nil_iff]
  constructor
  · intro h c hc
    by_cases hmem : c ∈ text.dropWhile Text.isBlank
    · exact h c (List.mem_reverse.mpr hmem)
    · rw [← List.takeWhile_append_dropWhile (p := Text.isBlank) (l := text)] at hc
      have hfront := (List.mem_append.mp hc).resolve_right hmem
      exact List.all_eq_true.mp List.all_takeWhile c hfront
  · intro h c hc
    exact h c ((List.dropWhile_sublist _).subset (List.mem_reverse.mp hc))

/-- For other tokens than gaps something else than blanks is written. -/
theorem IsToken.isGap_iff (h : IsToken free token rest) (spaces : Bool) :
    token.isGap = true ↔ ∀ c ∈ token.written spaces, Text.isBlank c = true := by
  have solid : ∀ {text : List Char} {d : Char}, d ∈ text → Text.isBlank d = false →
      ¬ ∀ c ∈ text, Text.isBlank c = true := by
    intro text d hd hsolid hblanks
    rw [hblanks d hd] at hsolid
    cases hsolid
  cases h with
  | standardString | escapeString | dollarQuoted | number =>
    exact iff_of_false Bool.false_ne_true (solid List.mem_cons_self rfl)
  | quotedIdentifier | parameter =>
    exact iff_of_false Bool.false_ne_true (solid List.mem_cons_self rfl)
  | lineComment | blockComment | blanks =>
    refine iff_of_true rfl ?_
    intro c hc
    cases spaces with
    | false => simp [Token.written] at hc
    | true =>
      obtain rfl : c = ' ' := by simpa [Token.written] using hc
      rfl
  | @character _ c _ hplain =>
    refine iff_of_false Bool.false_ne_true (solid List.mem_cons_self ?_)
    rw [← Bool.not_eq_true]
    exact fun hblank => hplain (.blanks hblank)

/-- Nothing but blanks is written exactly for gaps. -/
theorem Tokenizes.isGap_iff (h : Tokenizes free text tokens free' rest) (spaces : Bool) :
    (∀ token ∈ tokens, token.isGap = true) ↔
      ∀ c ∈ writtenFor spaces tokens, Text.isBlank c = true := by
  induction h generalizing spaces with
  | done => simp [writtenFor]
  | @token _ _ token _ _ _ htoken _ ih =>
    rw [List.forall_mem_cons, htoken.isGap_iff spaces, ih (!token.isGap), writtenFor,
      List.forall_mem_append]

variable {document statement : String} {options : Options}

/-- What is left of a statement that can be read to its end. -/
theorem Tokenizes.strip_eq {statement : List Char} (h : Tokenizes true statement tokens free []) :
    strip false statement = .ok (joined (Text.trim (writtenFor false tokens))) := by
  rw [strip, h.scan_eq aligned_start, scan_nil]
  simp [Except.map, joined]

/-- Nothing is left of a statement in which a token begins that nothing closes. -/
theorem Tokenizes.strip_eq_error {statement : List Char} {kind : Delimited} {offset : Nat}
    (h : Tokenizes true statement tokens free rest) (hopen : Unclosed free kind offset rest) :
    strip false statement = .error ⟨kind, (tokens.flatMap Token.text).length + offset⟩ := by
  obtain ⟨spaces, ha⟩ := h.aligned aligned_start
  have hlength : statement.length = (tokens.flatMap Token.text).length + rest.length := by
    rw [← List.length_append, ← h.eq_append]
  have hposition : statement.length - rest.length = (tokens.flatMap Token.text).length := by omega
  rw [strip, h.scan_eq aligned_start, hopen.scan_eq ha (by omega), hposition]
  rfl

/-- If something is left of a statement, it can be read to its end. -/
theorem exists_tokenizes_of_strip {statement : List Char} (h : strip false statement = .ok text) :
    ∃ tokens free, Tokenizes true statement tokens free [] := by
  obtain ⟨tokens, free, rest, hread, rfl | ⟨kind, offset, hopen⟩⟩ := exists_tokenizes true statement
  · exact ⟨tokens, free, hread⟩
  · rw [hread.strip_eq_error hopen] at h
    cases h

/-- A statement in which a token begins that nothing closes is refused. -/
theorem redact_of_unclosed {kind : Delimited} {offset : Nat}
    (hoptions : Options.parse? document = some options) (hkeep : options.replaceDigits = false)
    (h : Tokenizes true statement.toList tokens free rest)
    (hopen : Unclosed free kind offset rest) :
    redact document statement =
      .error (.unterminated ⟨kind, (tokens.flatMap Token.text).length + offset⟩) := by
  simp only [redact, hoptions, redactWith, hkeep, h.strip_eq_error hopen]

/-- A statement that can be read to its end is empty if it has gaps only. -/
theorem redact_of_forall_isGap (hoptions : Options.parse? document = some options)
    (hkeep : options.replaceDigits = false) (h : Tokenizes true statement.toList tokens free [])
    (hgaps : ∀ token ∈ tokens, token.isGap = true) : redact document statement = .error .empty := by
  have hempty : joined (Text.trim (writtenFor false tokens)) = [] := by
    rw [joined_eq_nil_iff, trim_eq_nil_iff]
    exact (h.isGap_iff false).mp hgaps
  simp only [redact, hoptions, redactWith, hkeep, h.strip_eq, hempty]

/-- Something is left of a statement that can be read to its end and has a token that is no gap. -/
theorem exists_redact_of_isGap_eq_false (hoptions : Options.parse? document = some options)
    (hkeep : options.replaceDigits = false) (h : Tokenizes true statement.toList tokens free [])
    (hsolid : ∃ token ∈ tokens, token.isGap = false) :
    ∃ redacted, redact document statement = .ok redacted := by
  have hleft : joined (Text.trim (writtenFor false tokens)) ≠ [] := by
    rw [ne_eq, joined_eq_nil_iff, trim_eq_nil_iff, ← h.isGap_iff false]
    intro hgaps
    obtain ⟨token, htoken, hsolid⟩ := hsolid
    rw [hgaps token htoken] at hsolid
    cases hsolid
  obtain ⟨c, left, hcons⟩ := List.exists_cons_of_ne_nil hleft
  simp only [redact, hoptions, redactWith, hkeep, h.strip_eq, hcons]
  exact ⟨_, rfl⟩

/-- Every statement is refused for a token that nothing closes, empty, or accepted, and the tokens
before that place say which. -/
theorem redact_cases (hoptions : Options.parse? document = some options)
    (hkeep : options.replaceDigits = false) :
    (∃ tokens free rest kind offset, Tokenizes true statement.toList tokens free rest ∧
      Unclosed free kind offset rest ∧ redact document statement =
        .error (.unterminated ⟨kind, (tokens.flatMap Token.text).length + offset⟩)) ∨
    (∃ tokens free, Tokenizes true statement.toList tokens free [] ∧
      (∀ token ∈ tokens, token.isGap = true) ∧ redact document statement = .error .empty) ∨
    (∃ tokens free, Tokenizes true statement.toList tokens free [] ∧
      (∃ token ∈ tokens, token.isGap = false) ∧
      ∃ redacted, redact document statement = .ok redacted) := by
  obtain ⟨tokens, free, rest, hread, rfl | ⟨kind, offset, hopen⟩⟩ :=
    exists_tokenizes true statement.toList
  · by_cases hgaps : ∀ token ∈ tokens, token.isGap = true
    · exact .inr (.inl ⟨tokens, free, hread, hgaps,
        redact_of_forall_isGap hoptions hkeep hread hgaps⟩)
    · have hsolid : ∃ token ∈ tokens, token.isGap = false := by simpa using hgaps
      exact .inr (.inr ⟨tokens, free, hread, hsolid,
        exists_redact_of_isGap_eq_false hoptions hkeep hread hsolid⟩)
  · exact .inl ⟨tokens, free, rest, kind, offset, hread, hopen,
      redact_of_unclosed hoptions hkeep hread hopen⟩

/-- Exactly the statements are accepted that are tokens up to their end and not only gaps. A
statement is refused with a position if, behind complete tokens, one begins that nothing closes: the
position is that of the delimiter, which in an escape string comes behind the mark. It is empty if
it consists of gaps. -/
theorem redact_outcome_iff (document statement : String) (options : Options)
    (hoptions : Options.parse? document = some options) (hkeep : options.replaceDigits = false) :
    (∀ kind position,
      redact document statement = .error (.unterminated ⟨kind, position⟩) ↔
        ∃ tokens free rest offset, Tokenizes true statement.toList tokens free rest ∧
          Unclosed free kind offset rest ∧
          position = (tokens.flatMap Token.text).length + offset) ∧
      (redact document statement = .error .empty ↔
        ∃ tokens free, Tokenizes true statement.toList tokens free [] ∧
          ∀ token ∈ tokens, token.isGap = true) ∧
      ((∃ redacted, redact document statement = .ok redacted) ↔
        ∃ tokens free, Tokenizes true statement.toList tokens free [] ∧
          ∃ token ∈ tokens, token.isGap = false) := by
  refine ⟨fun kind position => ⟨fun h => ?_, ?_⟩, ⟨fun h => ?_, ?_⟩, ⟨fun ⟨redacted, h⟩ => ?_, ?_⟩⟩
  · rcases redact_cases hoptions hkeep with
      ⟨tokens, free, rest, _, offset, hread, hopen, houtcome⟩ | ⟨_, _, _, _, houtcome⟩ |
        ⟨_, _, _, _, _, houtcome⟩
    all_goals
      rw [h] at houtcome
      cases houtcome
    exact ⟨tokens, free, rest, offset, hread, hopen, rfl⟩
  · rintro ⟨tokens, free, rest, offset, hread, hopen, rfl⟩
    exact redact_of_unclosed hoptions hkeep hread hopen
  · rcases redact_cases hoptions hkeep with
      ⟨_, _, _, _, _, _, _, houtcome⟩ | ⟨tokens, free, hread, hgaps, _⟩ | ⟨_, _, _, _, _, houtcome⟩
    case inr.inl => exact ⟨tokens, free, hread, hgaps⟩
    all_goals
      rw [h] at houtcome
      cases houtcome
  · rintro ⟨tokens, free, hread, hgaps⟩
    exact redact_of_forall_isGap hoptions hkeep hread hgaps
  · rcases redact_cases hoptions hkeep with
      ⟨_, _, _, _, _, _, _, houtcome⟩ | ⟨_, _, _, _, houtcome⟩ | ⟨tokens, free, hread, hsolid, _⟩
    case inr.inr => exact ⟨tokens, free, hread, hsolid⟩
    all_goals
      rw [h] at houtcome
      cases houtcome
  · rintro ⟨tokens, free, hread, hsolid⟩
    exact exists_redact_of_isGap_eq_false hoptions hkeep hread hsolid

/-- The dollars behind a parameter open no string, so `$1$q$ /* $q$` is refused for its comment. -/
theorem redact_outcome_open_comment :
    Options.parse? "" = some Options.default ∧ Options.default.replaceDigits = false ∧
      redact "" "$1$q$ /* $q$" = .error (.unterminated ⟨.comment, 6⟩) := by
  have hdigits : IsDigits ['1'] := ⟨List.cons_ne_nil _ _, List.forall_mem_singleton.mpr rfl⟩
  have hblanks : ∀ c ∈ [' '], Text.isBlank c = true := List.forall_mem_singleton.mpr rfl
  have hread : Tokenizes true "$1$q$ /* $q$".toList
      [.parameter ['$', '1'], .character '$', .character 'q', .character '$', .blanks [' ']] true
      "/* $q$".toList :=
    .token (.parameter hdigits rfl) (.token (.character (by decide))
      (.token (.character (by decide)) (.token (.character (by decide))
        (.token (.blanks (List.cons_ne_nil _ _) hblanks rfl) .done))))
  exact ⟨rfl, rfl, ((redact_outcome_iff "" "$1$q$ /* $q$" Options.default rfl rfl).1 .comment 6).mpr
    ⟨_, true, _, 0, hread, .comment (by decide), rfl⟩⟩

/-- The string in `E'abc` begins at the start, but the refusal gives the place of the quote. -/
theorem not_unterminated_at_mark :
    ¬ (redact "" "E'abc" = .error (.unterminated ⟨.stringLiteral, 0⟩) ↔
      ∃ tokens free rest offset, Tokenizes true "E'abc".toList tokens free rest ∧
        Unclosed free .stringLiteral offset rest ∧ 0 = (tokens.flatMap Token.text).length) := by
  have hopen : Unclosed true .stringLiteral 1 "E'abc".toList := by
    refine .escapeString rfl (.inl rfl) ?_
    exact fun body after => head?_of_afterQuote?_eq_none (by decide) rfl
  have hredact : redact "" "E'abc" = .error (.unterminated ⟨.stringLiteral, 1⟩) :=
    redact_of_unclosed rfl rfl .done hopen
  intro h
  have hmark := h.mpr ⟨[], true, _, 1, .done, hopen, rfl⟩
  rw [hredact] at hmark
  cases hmark

end Redaction

end QueryTelemetry
