import QueryTelemetry.Proofs.Redaction.Acceptance

/-!
# Digits within words

If digits within words are replaced too, the scan is ahead of the scan that keeps them by the digits
of one run. What the two have written differs by the digits that are masked (`maskDigits`), and
apart from these both go on alike (`Lane`). Behind a question mark something may begin that does not
begin within a word, so this holds as long as nothing of that kind follows the digits (`Steady`).

The question marks written for digits take part in lists. So the redacted statement is the one that
keeps digits with its digits masked and its lists joined (`redact_replaceDigits`), and an identifier
that ends in digits can merge with the literal behind it (`redact_ne_maskDigits_of_list`).
-/

namespace QueryTelemetry

namespace Redaction

/-! ### Masked digits -/

/-- Where a character of a redacted text stands. -/
inductive Stretch
  /-- Outside of words. -/
  | outside
  /-- Within a quoted identifier. -/
  | quoted
  /-- Behind the dollar of a parameter, and maybe some of its digits. -/
  | kept
  /-- Behind another character of a word than a digit. -/
  | word
  /-- Behind a digit that follows a character of a word. -/
  | masked
  deriving DecidableEq, Repr

namespace Stretch

/-- The stretch behind a character. -/
def next (stretch : Stretch) (c : Char) : Stretch :=
  if stretch = quoted then if c = '"' then outside else quoted
  else if c = '"' then quoted
  else if c.isDigit then if stretch = word ∨ stretch = masked then masked else kept
  else if c = '$' ∧ stretch = outside then kept
  else if isWordChar c then word
  else outside

/-- The stretch behind a text. -/
def after (stretch : Stretch) (text : List Char) : Stretch := text.foldl next stretch

/-- What is written for a character: a question mark for the first digit of a run that is masked,
and nothing for the others. -/
def mask : Stretch → Char → List Char
  | word, c => if c.isDigit then ['?'] else [c]
  | masked, c => if c.isDigit then [] else [c]
  | _, c => [c]

/-- Whether a scan that masks digits is outside of words, as it is behind the mark for digits. -/
def free : Stretch → Bool
  | kept | word => false
  | _ => true

/-- The text that a scan still has to read that does not stop within digits that are masked. -/
def ahead (stretch : Stretch) (text : List Char) : List Char :=
  if stretch = masked then text.dropWhile Char.isDigit else text

end Stretch

/-- The text with the digits masked that follow a character of a word. -/
def maskFrom : Stretch → List Char → List Char
  | _, [] => []
  | stretch, c :: rest => stretch.mask c ++ maskFrom (stretch.next c) rest

/-- The text with a question mark in the place of each run of digits that follows a character of a
word, quoted identifiers and parameters aside. -/
def maskDigits (text : List Char) : List Char := maskFrom .outside text

/-- The run `12` follows a letter, while the other digits belong to a parameter or are quoted. -/
example : maskDigits "t_12.x = $3 OR \"c4\"".toList = "t_?.x = $3 OR \"c4\"".toList := by decide

variable {stretch : Stretch} {text after rest written : List Char} {free free' spaces : Bool}
  {c d : Char} {total : Nat} {token : Token} {tokens : List Token}

theorem maskFrom_append (stretch : Stretch) (text text' : List Char) :
    maskFrom stretch (text ++ text') =
      maskFrom stretch text ++ maskFrom (stretch.after text) text' := by
  induction text generalizing stretch with
  | nil => rfl
  | cons c text ih => rw [List.cons_append, maskFrom, ih, maskFrom, List.append_assoc]; rfl

/-- Other characters than digits are written as they stand. -/
theorem Stretch.mask_of_isDigit_eq_false (hc : c.isDigit = false) : stretch.mask c = [c] := by
  cases stretch <;> simp [Stretch.mask, hc]

/-- For the first digit of a run that is masked a question mark is written. -/
theorem maskFrom_word_digit (digit : d.isDigit = true) : maskFrom .word [d] = ['?'] := by
  simp [maskFrom, Stretch.mask, digit]

/-- For the other digits of a run that is masked nothing is written. -/
theorem maskFrom_masked_digit (digit : d.isDigit = true) : maskFrom .masked [d] = [] := by
  simp [maskFrom, Stretch.mask, digit]

theorem Stretch.next_of_separator (hstretch : stretch ≠ .quoted) (hquote : c ≠ '"')
    (hword : isWordChar c = false) : stretch.next c = .outside := by
  have digit : c.isDigit = false := by
    rw [← Bool.not_eq_true]
    intro digit
    rw [isWordChar_of_isDigit digit] at hword
    cases hword
  have hdollar : c ≠ '$' := by
    rintro rfl
    cases hword
  simp [Stretch.next, hstretch, hquote, digit, hdollar, hword]

/-- Within a quoted identifier everything is written as it stands. -/
theorem IsQuotedBody.maskFrom_eq {body : List Char} (h : IsQuotedBody '"' false body) :
    maskFrom .quoted (body ++ ['"']) = body ++ ['"'] ∧
      Stretch.after .quoted (body ++ ['"']) = .outside := by
  generalize hquote : '"' = quote at h
  induction h with
  | nil => subst hquote; exact ⟨rfl, rfl⟩
  | @plain c rest hc _ _ ih =>
    subst hquote
    obtain ⟨hmask, hafter⟩ := ih
    have hnext : Stretch.quoted.next c = .quoted := by simp [Stretch.next, hc]
    refine ⟨?_, ?_⟩
    · rw [List.cons_append, maskFrom, hnext, hmask]
      rfl
    · rwa [List.cons_append, Stretch.after, List.foldl_cons, hnext]
  | doubled _ ih =>
    subst hquote
    obtain ⟨hmask, hafter⟩ := ih
    exact ⟨congrArg (['"', '"'] ++ ·) hmask, hafter⟩
  | escaped hescape => cases hescape

/-- The digits of a parameter are written as they stand. -/
theorem maskFrom_kept {digits : List Char} (h : ∀ c ∈ digits, c.isDigit = true) :
    maskFrom .kept digits = digits ∧ Stretch.after .kept digits = .kept := by
  induction digits with
  | nil => exact ⟨rfl, rfl⟩
  | cons c digits ih =>
    obtain ⟨hmask, hafter⟩ := ih fun d hd => h d (List.mem_cons_of_mem c hd)
    have digit : c.isDigit = true := h c List.mem_cons_self
    have hquote : c ≠ '"' := ne_of_isDigit digit rfl
    have hnext : Stretch.kept.next c = .kept := by simp [Stretch.next, hquote, digit]
    refine ⟨?_, ?_⟩
    · rw [maskFrom, hnext, hmask]
      rfl
    · rwa [Stretch.after, List.foldl_cons, hnext]

/-! ### Steady statements -/

/-- Behind a run of digits within a word nothing follows that would begin outside of words. -/
def SteadyFrom (free : Bool) (text : List Char) : Prop :=
  ∀ tokens d free' rest, Tokenizes free text (tokens ++ [.character d]) free' rest →
    d.isDigit = true → ¬ BeginsOutside (rest.dropWhile Char.isDigit)

/-- A statement in which nothing follows a run of digits within a word that would begin outside of
words. -/
def Steady (statement : List Char) : Prop := SteadyFrom true statement

theorem SteadyFrom.step (h : SteadyFrom free (token.text ++ after))
    (htoken : IsToken free token after) : SteadyFrom token.free after := by
  intro tokens d free' rest hread digit
  exact h (token :: tokens) d free' rest (.token htoken hread) digit

theorem SteadyFrom.not_beginsOutside (h : SteadyFrom free (d :: rest))
    (htoken : IsToken free (.character d) rest) (digit : d.isDigit = true) :
    ¬ BeginsOutside (rest.dropWhile Char.isDigit) :=
  h [] d _ rest (.token htoken .done) digit

/-- A statement is steady if nothing begins behind any of its digits, within a word or not. -/
theorem Steady.of_forall_drop (h : ∀ n < text.length, (text.drop n).head?.any Char.isDigit = true →
    ¬ BeginsOutside ((text.drop n).dropWhile Char.isDigit)) : Steady text := by
  intro tokens d free rest hread digit
  have htext : text = tokens.flatMap Token.text ++ d :: rest := by
    rw [hread.eq_append, List.flatMap_append]
    simp [Token.text]
  have hbegins := h (tokens.flatMap Token.text).length (by rw [htext]; simp)
  rw [htext, List.drop_left, List.dropWhile_cons_of_pos digit] at hbegins
  exact hbegins digit

/-! ### The two scans -/

/-- What the scan with masked digits has written in front of `text`, where the other one has come to
a place in the given stretch. -/
inductive Lane : Stretch → (free spaces : Bool) → (written text : List Char) → Prop
  | outside {spaces : Bool} {written text : List Char} :
      Aligned true spaces written text → Lane .outside true spaces written text
  | kept {written text : List Char} :
      Aligned false true written text → text.head?.any Char.isDigit = false →
      Lane .kept false true written text
  | word {written text : List Char} :
      Aligned false true written text → Lane .word false true written text
  | masked {written text : List Char} :
      Aligned true true written (text.dropWhile Char.isDigit) →
      ¬ BeginsOutside (text.dropWhile Char.isDigit) → Lane .masked false true written text

theorem Token.isDigit_or (token : Token) :
    (∃ d, token = .character d ∧ d.isDigit = true) ∨
      ∀ c, token = .character c → c.isDigit = false := by
  by_cases hdigit : ∃ d, token = .character d ∧ d.isDigit = true
  · exact .inl hdigit
  · refine .inr fun c hc => ?_
    rw [← Bool.not_eq_true]
    exact fun digit => hdigit ⟨c, hc, digit⟩

/-- Within a word a digit is a single character. -/
theorem IsToken.eq_character_of_isDigit (h : IsToken false token after)
    (digit : (token.text ++ after).head?.any Char.isDigit = true) :
    ∃ d, token = .character d ∧ d.isDigit = true := by
  cases h with
  | standardString | quotedIdentifier | lineComment | blockComment => cases digit
  | @blanks _ blanks _ hne hblanks _ =>
    obtain ⟨c, blanks, rfl⟩ := List.exists_cons_of_ne_nil hne
    have hblank : Text.isBlank c = true := hblanks c List.mem_cons_self
    have hdigit : c.isDigit = true := digit
    rw [isDigit_eq_false_of_isBlank hblank] at hdigit
    cases hdigit
  | @character _ c => exact ⟨c, rfl, digit⟩

/-- Outside of words a digit begins a number. -/
theorem IsToken.free_eq_false (h : IsToken free (.character d) after) (digit : d.isDigit = true) :
    free = false := by
  cases h with
  | character hplain =>
    rw [← Bool.not_eq_true]
    exact fun hfree => hplain (.outside hfree (.number digit))

/-- A token within a word is one outside of words too if nothing else begins there. -/
theorem IsToken.of_not_beginsOutside (h : IsToken false token after)
    (hbegins : ¬ BeginsOutside (token.text ++ after)) : IsToken true token after := by
  cases h with
  | standardString hbody hafter => exact .standardString hbody hafter
  | quotedIdentifier hbody hafter => exact .quotedIdentifier hbody hafter
  | lineComment hbody hend => exact .lineComment hbody hend
  | blockComment hfirst => exact .blockComment hfirst
  | blanks hne hblanks hend => exact .blanks hne hblanks hend
  | character hplain =>
    refine .character fun h => hplain ?_
    cases h with
    | standardString => exact .standardString
    | quotedIdentifier => exact .quotedIdentifier
    | lineComment => exact .lineComment
    | blockComment => exact .blockComment
    | blanks hblank => exact .blanks hblank
    | outside _ houtside => exact absurd houtside hbegins

namespace Lane

theorem ne_quoted (h : Lane stretch free spaces written text) : stretch ≠ .quoted := by
  cases h <;> exact nofun

theorem eq_outside (h : Lane stretch true spaces written text) : stretch = .outside := by
  cases h
  rfl

theorem eq_outside_of_no_spaces (h : Lane stretch free false written text) :
    stretch = .outside := by
  cases h
  rfl

/-- What is written for other tokens than digits is not masked, and behind it no digits are. -/
theorem written_eq (h : Lane stretch free spaces written (token.text ++ after))
    (htoken : IsToken free token after)
    (hdigit : ∀ c, token = .character c → c.isDigit = false) :
    maskFrom stretch (token.written spaces) = token.written spaces ∧
      stretch.after (token.written spaces) ≠ .masked ∧
      ∀ written', Aligned token.free (!token.isGap) written' after →
        Lane (stretch.after (token.written spaces)) token.free (!token.isGap) written' after := by
  have hquoted := h.ne_quoted
  cases htoken with
  | standardString | escapeString | dollarQuoted | number =>
    have hnext : stretch.after ['?'] = .outside :=
      Stretch.next_of_separator hquoted (by decide) rfl
    refine ⟨by simp [Token.written, maskFrom, Stretch.mask_of_isDigit_eq_false], ?_⟩
    rw [Token.written, hnext]
    exact ⟨by decide, fun written' ha => .outside ha⟩
  | @quotedIdentifier _ body _ hbody _ =>
    obtain ⟨hmask, hafter⟩ := hbody.maskFrom_eq
    have hnext : stretch.next '"' = .quoted := by simp [Stretch.next, hquoted]
    refine ⟨?_, ?_⟩
    · rw [Token.written, maskFrom, hnext, hmask, Stretch.mask_of_isDigit_eq_false rfl]
      rfl
    · rw [Token.written, Stretch.after, List.foldl_cons, hnext, ← Stretch.after, hafter]
      exact ⟨by decide, fun written' ha => .outside ha⟩
  | @parameter digits _ hdigits hend =>
    obtain rfl := h.eq_outside
    obtain ⟨hmask, hafter⟩ := maskFrom_kept hdigits.2
    have hkept : Stretch.after .outside ('$' :: digits) = .kept := hafter
    refine ⟨congrArg ('$' :: ·) hmask, ?_⟩
    rw [Token.written, hkept]
    exact ⟨by decide, fun written' ha => .kept ha hend⟩
  | lineComment | blockComment | blanks =>
    cases spaces with
    | false =>
      obtain rfl := h.eq_outside_of_no_spaces
      have hne : Stretch.outside ≠ .masked := by decide
      exact ⟨rfl, hne, fun written' ha => .outside ha⟩
    | true =>
      have hnext : stretch.after [' '] = .outside :=
        Stretch.next_of_separator hquoted (by decide) rfl
      refine ⟨by simp [Token.written, maskFrom, Stretch.mask_of_isDigit_eq_false], ?_⟩
      rw [Token.written, if_pos rfl, hnext]
      exact ⟨by decide, fun written' ha => .outside ha⟩
  | @character _ c _ hplain =>
    have digit : c.isDigit = false := hdigit c rfl
    have hquote : c ≠ '"' := by
      rintro rfl
      exact hplain .quotedIdentifier
    refine ⟨by simp [Token.written, maskFrom, Stretch.mask_of_isDigit_eq_false digit], ?_⟩
    rw [Token.written, Stretch.after, List.foldl_cons, List.foldl_nil]
    cases hword : isWordChar c with
    | false =>
      have hnext : stretch.next c = .outside := Stretch.next_of_separator hquoted hquote hword
      rw [Token.free, hword, hnext]
      exact ⟨by decide, fun written' ha => .outside ha⟩
    | true =>
      rw [Token.free, hword]
      by_cases hdollar : c = '$' ∧ stretch = .outside
      · -- a single dollar keeps the digits behind it, but with a digit it would be a parameter
        obtain ⟨rfl, rfl⟩ := hdollar
        refine ⟨by decide, fun written' ha => .kept ha ?_⟩
        cases h
        cases after with
        | nil => rfl
        | cons d after =>
          rw [List.head?_cons, Option.any_some, ← Bool.not_eq_true]
          exact fun digit => hplain (.outside rfl (.parameter digit))
      · have hnext : stretch.next c = .word := by
          simp [Stretch.next, hquoted, hquote, digit, hdollar, hword]
        rw [hnext]
        exact ⟨by decide, fun written' ha => .word ha⟩

/-- For a token that is no digit the scan with masked digits is where the token stands. -/
theorem aligned (h : Lane stretch free spaces written (token.text ++ after))
    (htoken : IsToken free token after)
    (hdigit : ∀ c, token = .character c → c.isDigit = false) :
    Aligned stretch.free spaces written (token.text ++ after) ∧
      IsToken stretch.free token after ∧
      stretch.ahead (token.text ++ after) = token.text ++ after := by
  cases h with
  | outside ha | kept ha _ | word ha => exact ⟨ha, htoken, rfl⟩
  | masked ha hbegins =>
    have hhead : (token.text ++ after).head?.any Char.isDigit = false := by
      rw [← Bool.not_eq_true]
      intro digit
      obtain ⟨d, hd, hdigits⟩ := htoken.eq_character_of_isDigit digit
      rw [hdigit d hd] at hdigits
      cases hdigits
    rw [dropWhile_eq_self hhead] at ha hbegins
    exact ⟨ha, htoken.of_not_beginsOutside hbegins, dropWhile_eq_self hhead⟩

/-- A digit is a single character within a word only, and it is masked. -/
theorem of_digit (h : Lane stretch free spaces written (d :: after))
    (htoken : IsToken free (.character d) after) (digit : d.isDigit = true) :
    (stretch = .word ∨ stretch = .masked) ∧ stretch.next d = .masked := by
  have hquote : d ≠ '"' := ne_of_isDigit digit rfl
  have hword : stretch = .word ∨ stretch = .masked := by
    cases h with
    | outside =>
      have hfree := htoken.free_eq_false digit
      cases hfree
    | kept _ hhead =>
      have hhead : d.isDigit = false := hhead
      rw [digit] at hhead
      cases hhead
    | word => exact .inl rfl
    | masked => exact .inr rfl
  refine ⟨hword, ?_⟩
  rcases hword with rfl | rfl <;> simp [Stretch.next, hquote, digit]

/-- Both scans go past a token alike. A run of digits within a word is gone past at its first
one. -/
theorem step (total : Nat) (h : Lane stretch free spaces written (token.text ++ after))
    (htoken : IsToken free token after) (hsteady : SteadyFrom free (token.text ++ after)) :
    Lane (stretch.after (token.written spaces)) token.free (!token.isGap)
        ((maskFrom stretch (token.written spaces)).reverse ++ written) after ∧
      scan true total written (stretch.ahead (token.text ++ after)) =
        scan true total ((maskFrom stretch (token.written spaces)).reverse ++ written)
          ((stretch.after (token.written spaces)).ahead after) := by
  rcases token.isDigit_or with ⟨d, rfl, digit⟩ | hplain
  · have hbegins := hsteady.not_beginsOutside htoken digit
    have hfree : (Token.character d).free = false := by
      simp [Token.free, isWordChar_of_isDigit digit]
    obtain ⟨hword, hnext⟩ := h.of_digit htoken digit
    rw [hfree, Token.written, Stretch.after, List.foldl_cons, List.foldl_nil, hnext]
    -- at its first digit the scan goes past the whole run, so at the others it stays where it is
    rcases hword with rfl | rfl
    · have hin : (Before.ofReversed written).inWord = true := by
        cases h with
        | word ha => exact ha.inWord
      have hread : Reads true (Before.ofReversed written) d after .placeholder
          (after.dropWhile Char.isDigit) :=
        .digitsInWord digit hin rfl
      rw [maskFrom_word_digit digit]
      refine ⟨.masked (.of_separator rfl (by decide) (by decide) (by decide)) hbegins, ?_⟩
      exact scan_cons_of_reads hread
    · have hahead : (d :: after).dropWhile Char.isDigit = after.dropWhile Char.isDigit :=
        List.dropWhile_cons_of_pos digit
      have ha : Aligned true true written (after.dropWhile Char.isDigit) := by
        cases h with
        | masked ha => rwa [← hahead]
      rw [maskFrom_masked_digit digit]
      exact ⟨.masked ha hbegins, congrArg (scan true total written) hahead⟩
  · obtain ⟨hmask, hmasked, hnext⟩ := h.written_eq htoken hplain
    obtain ⟨ha, htoken', hahead⟩ := h.aligned htoken hplain
    have hbehind : (stretch.after (token.written spaces)).ahead after = after := if_neg hmasked
    rw [hmask, hahead, hbehind]
    exact ⟨hnext _ (ha.step htoken'), ha.scan_token htoken' fun _ => hplain⟩

/-- Both scans go from token to token alike. -/
theorem run (total : Nat) (h : Lane stretch free spaces written text)
    (hread : Tokenizes free text tokens free' rest) (hsteady : SteadyFrom free text) :
    ∃ stretch' spaces',
      Lane stretch' free' spaces' ((maskFrom stretch (writtenFor spaces tokens)).reverse ++ written)
        rest ∧
      scan true total written (stretch.ahead text) =
        scan true total ((maskFrom stretch (writtenFor spaces tokens)).reverse ++ written)
          (stretch'.ahead rest) := by
  induction hread generalizing stretch spaces written with
  | done => exact ⟨stretch, spaces, h, rfl⟩
  | token htoken _ ih =>
    obtain ⟨hnext, hscan⟩ := h.step total htoken hsteady
    obtain ⟨stretch', spaces', hlane, hrest⟩ := ih hnext (hsteady.step htoken)
    refine ⟨stretch', spaces', ?_, ?_⟩
    · simpa [writtenFor, maskFrom_append] using hlane
    · rw [hscan, hrest]
      simp [writtenFor, maskFrom_append]

/-- Neither scan gets past a token that nothing closes. -/
theorem scan_eq_of_unclosed {kind : Delimited} {offset : Nat}
    (h : Lane stretch free spaces written text) (hopen : Unclosed free kind offset text)
    (htotal : text.length ≤ total) :
    scan true total written (stretch.ahead text) = .error ⟨kind, total - text.length + offset⟩ := by
  cases h with
  | outside ha | kept ha _ | word ha => exact hopen.scan_eq ha htotal
  | masked ha _ =>
    obtain ⟨hhead, hopen'⟩ :
        text.head?.any Char.isDigit = false ∧ Unclosed true kind offset text := by
      cases hopen with
      | standardString hopen => exact ⟨rfl, .standardString hopen⟩
      | quotedIdentifier hopen => exact ⟨rfl, .quotedIdentifier hopen⟩
      | comment hopen => exact ⟨rfl, .comment hopen⟩
      | escapeString hfree | dollarQuoted hfree => cases hfree
    rw [dropWhile_eq_self hhead] at ha
    have hahead : Stretch.masked.ahead text = text := dropWhile_eq_self hhead
    rw [hahead]
    exact hopen'.scan_eq ha htotal

end Lane

/-! ### Trimmed and joined texts -/

/-- Blanks at the end are written as they stand. -/
theorem maskFrom_blanks {blanks : List Char} (h : ∀ c ∈ blanks, Text.isBlank c = true) :
    maskFrom stretch blanks = blanks := by
  induction blanks generalizing stretch with
  | nil => rfl
  | cons c blanks ih =>
    have digit : c.isDigit = false := isDigit_eq_false_of_isBlank (h c List.mem_cons_self)
    rw [maskFrom, Stretch.mask_of_isDigit_eq_false digit,
      ih fun d hd => h d (List.mem_cons_of_mem c hd)]
    rfl

/-- A blank leads out of words. -/
theorem Stretch.next_of_isBlank (hstretch : stretch ≠ .quoted) (hblank : Text.isBlank c = true) :
    stretch.next c = .outside :=
  next_of_separator hstretch (ne_of_isBlank hblank (by decide)) (isWordChar_of_isBlank hblank)

/-- What is written for a character that is no blank does not end in one. -/
theorem Stretch.any_getLast?_mask (stretch : Stretch) (hblank : Text.isBlank c = false) :
    (stretch.mask c).getLast?.any Text.isBlank = false := by
  have hmask : stretch.mask c = [c] ∨ stretch.mask c = ['?'] ∨ stretch.mask c = [] := by
    cases stretch <;> cases digit : c.isDigit <;> simp [Stretch.mask, digit]
  rcases hmask with h | h | h <;> rw [h]
  · simpa using hblank
  · rfl
  · rfl

/-- A masked text does not end in a blank if the text does not. -/
theorem any_getLast?_maskFrom (h : text.getLast?.any Text.isBlank = false) :
    (maskFrom stretch text).getLast?.any Text.isBlank = false := by
  induction text generalizing stretch with
  | nil => rfl
  | cons c rest ih =>
    rw [maskFrom, List.getLast?_append]
    cases hblank : Text.isBlank c with
    | false =>
      cases rest with
      | nil => exact stretch.any_getLast?_mask hblank
      | cons d rest =>
        rw [List.getLast?_cons_cons] at h
        have hrest := @ih (stretch.next c) h
        cases hlast : (maskFrom (stretch.next c) (d :: rest)).getLast? with
        | none => exact stretch.any_getLast?_mask hblank
        | some e => simpa [hlast] using hrest
    | true =>
      cases rest with
      | nil =>
        rw [List.getLast?_singleton, Option.any_some, hblank] at h
        cases h
      | cons d rest =>
        rw [List.getLast?_cons_cons] at h
        have hrest := @ih (stretch.next c) h
        -- behind a blank something is written for the next character
        have hwritten : ∃ e, (maskFrom (stretch.next c) (d :: rest)).getLast? = some e := by
          by_cases hquoted : stretch = .quoted
          · have hquote : c ≠ '"' := ne_of_isBlank hblank (by decide)
            have hnext : stretch.next c = .quoted := by simp [Stretch.next, hquoted, hquote]
            rw [hnext]
            exact ⟨_, List.getLast?_cons⟩
          · rw [Stretch.next_of_isBlank hquoted hblank]
            exact ⟨_, List.getLast?_cons⟩
        obtain ⟨e, he⟩ := hwritten
        rw [he] at hrest ⊢
        exact hrest

/-- The first character is written as it stands. -/
theorem head?_maskDigits (text : List Char) : (maskDigits text).head? = text.head? := by
  cases text <;> rfl

theorem maskDigits_eq_nil_iff : maskDigits text = [] ↔ text = [] := by
  rw [← List.head?_eq_none_iff, head?_maskDigits, List.head?_eq_none_iff]

theorem maskDigits_dropWhile_isBlank (text : List Char) :
    maskDigits (text.dropWhile Text.isBlank) = (maskDigits text).dropWhile Text.isBlank := by
  induction text with
  | nil => rfl
  | cons c rest ih =>
    by_cases hblank : Text.isBlank c = true
    · have hout : Stretch.outside ≠ .quoted := nofun
      have hmask : maskDigits (c :: rest) = c :: maskDigits rest := by
        rw [maskDigits, maskFrom, Stretch.next_of_isBlank hout hblank]
        rfl
      rw [hmask, List.dropWhile_cons_of_pos hblank, List.dropWhile_cons_of_pos hblank, ih]
    · rw [List.dropWhile_cons_of_neg hblank, dropWhile_eq_self]
      rw [head?_maskDigits]
      simpa using hblank

theorem maskDigits_trim (text : List Char) :
    maskDigits (Text.trim text) = Text.trim (maskDigits text) := by
  rw [Text.trim, Text.trim, ← maskDigits_dropWhile_isBlank]
  obtain ⟨blanks, hblanks, htext⟩ := exists_eq_trimEnd_append (text.dropWhile Text.isBlank)
  have hlast := any_getLast?_trimEnd (text.dropWhile Text.isBlank)
  generalize Text.trimEnd (text.dropWhile Text.isBlank) = front at htext hlast ⊢
  have hmasked : (maskDigits front).reverse.head?.any Text.isBlank = false := by
    rw [List.head?_reverse]
    exact any_getLast?_maskFrom hlast
  have hreversed : ∀ c ∈ blanks.reverse, Text.isBlank c = true :=
    fun c hc => hblanks c (List.mem_reverse.mp hc)
  have hmask : maskDigits (front ++ blanks) = maskDigits front ++ blanks := by
    rw [maskDigits, maskFrom_append, maskFrom_blanks hblanks]
    rfl
  rw [htext, hmask, Text.trimEnd, List.reverse_append, dropWhile_append_of_forall hreversed hmasked,
    List.reverse_reverse]

/-- Joining the lists of a text first makes no difference if those of the masked text are joined. -/
theorem joined_maskFrom_collapse {separator : List Char}
    (hseparator : separator = [','] ∨ separator = [',', ' ']) (front text : List Char) :
    joined (front ++ maskFrom stretch (collapse separator text)) =
      joined (front ++ maskFrom stretch text) := by
  induction text generalizing stretch front with
  | nil => rfl
  | cons c rest ih =>
    rcases collapse_cons separator rest c with ⟨hkept, -⟩ | ⟨more, rfl, hdone, hjoined⟩
    · rw [hkept, maskFrom, maskFrom, ← List.append_assoc, ← List.append_assoc, ih]
    · have hmark : ∀ stretch : Stretch, ∀ rest,
          maskFrom stretch ('?' :: rest) = '?' :: maskFrom (stretch.next '?') rest := by
        intro stretch rest
        rw [maskFrom, Stretch.mask_of_isDigit_eq_false rfl]
        rfl
      have hlist : ∀ more, joined (front ++ '?' :: (separator ++ '?' :: more)) =
          joined (front ++ '?' :: more) := by
        intro more
        rcases hseparator with rfl | rfl
        · exact joined_comma front more
        · exact joined_spacedComma front more
      -- the stretch behind the list is that behind its first mark
      have hsame : maskFrom (stretch.next '?') (separator ++ '?' :: more) =
          separator ++ '?' :: maskFrom (stretch.next '?') more := by
        by_cases hquoted : stretch = .quoted
        · subst hquoted
          rcases hseparator with rfl | rfl <;> rfl
        · rw [Stretch.next_of_separator hquoted (by decide) rfl]
          rcases hseparator with rfl | rfl <;> rfl
      have hrest := @ih (stretch.next '?') (front ++ ['?'])
      rw [hdone, hsame, List.append_assoc, List.append_assoc, List.singleton_append,
        List.singleton_append, hlist] at hrest
      rw [hjoined, hmark, hmark, hrest]

theorem joined_maskDigits_joined (text : List Char) :
    joined (maskDigits (joined text)) = joined (maskDigits text) := by
  have hcomma := @joined_maskFrom_collapse .outside [','] (.inl rfl) []
  have hspaced := @joined_maskFrom_collapse .outside [',', ' '] (.inr rfl) []
  exact (hcomma _).trans (hspaced text)

/-- What is left of a statement that can be read to its end if digits within words are replaced. -/
theorem Tokenizes.strip_masked_eq {statement : List Char}
    (h : Tokenizes true statement tokens free []) (hsteady : Steady statement) :
    strip true statement = .ok (joined (Text.trim (maskDigits (writtenFor false tokens)))) := by
  have hstart : Lane .outside true false [] statement := .outside aligned_start
  obtain ⟨stretch, spaces, -, hscan⟩ := hstart.run statement.length h hsteady
  have hahead : Stretch.outside.ahead statement = statement := rfl
  have hnil : stretch.ahead [] = [] := by cases stretch <;> rfl
  rw [hahead, hnil, scan_nil, List.append_nil] at hscan
  rw [strip, hscan]
  simp [Except.map, joined, maskDigits]

/-- What is left of a statement if digits within words are replaced is what is left of it otherwise,
with its digits masked and its lists joined. -/
theorem strip_replaceDigits {statement : List Char} (hsteady : Steady statement) :
    strip true statement =
      (strip false statement).map fun text => joined (maskDigits text) := by
  obtain ⟨tokens, free, rest, hread, rfl | ⟨kind, offset, hopen⟩⟩ := exists_tokenizes true statement
  · rw [hread.strip_eq, hread.strip_masked_eq hsteady, ← maskDigits_trim,
      ← joined_maskDigits_joined]
    rfl
  · obtain ⟨spaces, ha⟩ := hread.aligned aligned_start
    have hle : rest.length ≤ statement.length := by
      rw [hread.eq_append, List.length_append]
      omega
    have hstart : Lane .outside true false [] statement := .outside aligned_start
    obtain ⟨stretch, spaces', hlane, hscan⟩ := hstart.run statement.length hread hsteady
    have hahead : Stretch.outside.ahead statement = statement := rfl
    rw [hahead] at hscan
    rw [strip, strip, hscan, hlane.scan_eq_of_unclosed hopen hle, hread.scan_eq aligned_start,
      hopen.scan_eq ha hle]
    rfl

/-- Joining leaves exactly the texts alone in which there are no lists. -/
theorem joined_eq_self_iff :
    joined text = text ↔ ¬ twoMarks [','] <:+: text ∧ ¬ twoMarks [',', ' '] <:+: text := by
  constructor
  · intro h
    rw [← h]
    exact ⟨not_infix_collapse _ _,
      not_infix_collapse_of_not_infix (by decide) (not_infix_collapse _ _)⟩
  · rintro ⟨hcomma, hspaced⟩
    rw [joined, collapse_eq_self hspaced, collapse_eq_self hcomma]

/-- If digits within words are replaced too, a statement is refused for the same reason as
otherwise, and its text becomes the one that keeps digits, with its digits masked and its lists
joined. Only if there are lists among the masked digits are these joined to what stands around
them. -/
theorem redact_replaceDigits (document document' statement : String) (options options' : Options)
    (hoptions : Options.parse? document = some options) (hkeep : options.replaceDigits = false)
    (hoptions' : Options.parse? document' = some options')
    (hreplace : options'.replaceDigits = true) (hsteady : Steady statement.toList) :
    (∀ failure, redact document' statement = .error failure ↔
      redact document statement = .error failure) ∧
    ∀ redacted, redact document statement = .ok redacted →
      ∃ redacted', redact document' statement = .ok redacted' ∧
        redacted'.text.toList = joined (maskDigits redacted.text.toList) ∧
        (redacted'.text.toList = maskDigits redacted.text.toList ↔
          ¬ twoMarks [','] <:+: maskDigits redacted.text.toList ∧
            ¬ twoMarks [',', ' '] <:+: maskDigits redacted.text.toList) := by
  have hstrip := strip_replaceDigits hsteady
  simp only [redact, hoptions, hoptions', redactWith, hkeep, hreplace, hstrip]
  cases strip false statement.toList with
  | error u =>
    refine ⟨fun failure => Iff.rfl, ?_⟩
    intro redacted hredacted
    cases hredacted
  | ok text =>
    cases text with
    | nil =>
      refine ⟨fun failure => Iff.rfl, ?_⟩
      intro redacted hredacted
      cases hredacted
    | cons c text =>
      have hne : joined (maskDigits (c :: text)) ≠ [] := by
        rw [Ne, joined_eq_nil_iff, maskDigits_eq_nil_iff]
        exact List.cons_ne_nil c text
      obtain ⟨first, more, hmasked⟩ := List.exists_cons_of_ne_nil hne
      simp only [Except.map, hmasked]
      refine ⟨fun failure => ?_, fun redacted hredacted => ?_⟩
      · constructor
        all_goals
          intro hfailed
          cases hfailed
      · obtain rfl := Except.ok.inj hredacted
        refine ⟨_, rfl, ?_, ?_⟩
        · rw [String.toList_ofList, String.toList_ofList, hmasked]
        · rw [String.toList_ofList, String.toList_ofList, ← hmasked, joined_eq_self_iff]

/-- Of the digits in `SELECT t1.c2 = $3, 4e5` those of the names are masked, and nothing is
joined. -/
theorem redact_replaceDigits_of_names :
    Options.parse? "" = some Options.default ∧ Options.default.replaceDigits = false ∧
      Options.parse? "\x7b\"replace_digits\": true\x7d" = some ⟨true, true, true⟩ ∧
      Steady "SELECT t1.c2 = $3, 4e5".toList ∧
      ∃ redacted,
        redact "\x7b\"replace_digits\": true\x7d" "SELECT t1.c2 = $3, 4e5" = .ok redacted ∧
        redacted.text.toList = "SELECT t?.c? = $3, ?".toList := by
  have hoptions : Options.parse? "\x7b\"replace_digits\": true\x7d" = some ⟨true, true, true⟩ := by
    decide +kernel
  have hsteady : Steady "SELECT t1.c2 = $3, 4e5".toList := .of_forall_drop (by decide)
  have hstrip : strip false "SELECT t1.c2 = $3, 4e5".toList = .ok "SELECT t1.c2 = $3, ?".toList :=
    strip_eq_of_place? 19 "? ,3$ = 2c.1t TCELES".toList (by decide) (by decide)
  obtain ⟨mentions, hredact⟩ := exists_redact_of_strip (by decide) hstrip
  obtain ⟨redacted, hredacted, htext, -⟩ := (redact_replaceDigits "" _ "SELECT t1.c2 = $3, 4e5"
    Options.default _ rfl rfl hoptions rfl hsteady).2 _ hredact
  refine ⟨rfl, rfl, hoptions, hsteady, redacted, hredacted, ?_⟩
  rw [htext]
  have hmasked : joined (maskDigits "SELECT t1.c2 = $3, ?".toList) =
      "SELECT t?.c? = $3, ?".toList := by
    decide
  exact hmasked

/-- In `SELECT a1, 2` the digit of the name and the number behind it become one question mark. -/
theorem redact_ne_maskDigits_of_list :
    ∃ redacted redacted', redact "" "SELECT a1, 2" = .ok redacted ∧
      redact "\x7b\"replace_digits\": true\x7d" "SELECT a1, 2" = .ok redacted' ∧
      redacted'.text.toList ≠ maskDigits redacted.text.toList := by
  have hoptions : Options.parse? "\x7b\"replace_digits\": true\x7d" = some ⟨true, true, true⟩ := by
    decide +kernel
  have hstrip : strip false "SELECT a1, 2".toList = .ok "SELECT a1, ?".toList :=
    strip_eq_of_place? 12 "? ,1a TCELES".toList (by decide) (by decide)
  have hstrip' : strip true "SELECT a1, 2".toList = .ok "SELECT a?".toList := by
    rw [strip_replaceDigits (.of_forall_drop (by decide)), hstrip]
    decide
  obtain ⟨mentions, hredact⟩ := exists_redact_of_strip (by decide) hstrip
  obtain ⟨mentions', hredact'⟩ := exists_redact_of_parse hoptions (by decide) hstrip'
  refine ⟨_, _, hredact, hredact', ?_⟩
  have hmasked : "SELECT a?".toList ≠ maskDigits "SELECT a1, ?".toList := by decide
  exact hmasked

end Redaction

end QueryTelemetry
