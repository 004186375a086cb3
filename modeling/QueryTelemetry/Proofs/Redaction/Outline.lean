import QueryTelemetry.Proofs.Redaction.Digits

/-!
# Quoted identifiers and parameters

The scan writes quoted identifiers and parameters as they stand, and what it writes for other tokens
begins none. The outline of a text is the sequence of them (`Outlines`). It is known for what the
scan writes, cutting blanks off leaves it alone, and joining lists changes it only by joining the
lists within a quoted identifier. A text has one outline, and a redacted statement is what is left
of itself, so its own identifiers and parameters are those of the statement with their lists joined
(`keptTexts_of_redact`). Lists in an identifier are joined indeed (`keptTexts_ne_of_quoted_list`).
-/

namespace QueryTelemetry

namespace Redaction

/-- The text of a quoted identifier or a parameter. -/
def Token.kept? : Token → Option (List Char)
  | quotedIdentifier text | parameter text => some text
  | _ => none

/-- The quoted identifiers and parameters among the tokens, in order. -/
def keptTexts (tokens : List Token) : List (List Char) := tokens.filterMap Token.kept?

/-- The parts are the quoted identifiers and parameters of a text that has nothing else in it than
single characters. The flag says whether the text begins outside of words. -/
inductive Outlines : (free : Bool) → (text : List Char) → (parts : List (List Char)) → Prop
  | nil {free : Bool} : Outlines free [] []
  | identifier {free : Bool} {body rest : List Char} {parts : List (List Char)} :
      IsQuotedBody '"' false body → rest.head? ≠ some '"' → Outlines true rest parts →
      Outlines free ('"' :: (body ++ '"' :: rest)) (('"' :: (body ++ ['"'])) :: parts)
  | parameter {digits rest : List Char} {parts : List (List Char)} :
      IsDigits digits → rest.head?.any Char.isDigit = false → Outlines false rest parts →
      Outlines true ('$' :: (digits ++ rest)) (('$' :: digits) :: parts)
  | other {free : Bool} {c : Char} {rest : List Char} {parts : List (List Char)} :
      c ≠ '"' → (c = '$' → free = true → rest.head?.any Char.isDigit = false) →
      Outlines (!isWordChar c) rest parts → Outlines free (c :: rest) parts

variable {text after rest written : List Char} {free free' spaces replaceDigits : Bool} {c : Char}
  {token : Token} {tokens : List Token} {parts parts' : List (List Char)} {separator : List Char}
  {stretch : Stretch}

theorem keptTexts_cons (token : Token) (tokens : List Token) :
    keptTexts (token :: tokens) = token.kept?.toList ++ keptTexts tokens := by
  cases htext : token.kept? <;> simp [keptTexts, htext]

/-! ### A text has one outline -/

/-- Behind a character that begins neither an identifier nor a parameter the outline is the same. -/
theorem Outlines.of_cons (h : Outlines free (c :: rest) parts) (hquote : c ≠ '"')
    (hdollar : c ≠ '$') : Outlines (!isWordChar c) rest parts := by
  cases h with
  | identifier => exact absurd rfl hquote
  | parameter => exact absurd rfl hdollar
  | other _ _ hrest => exact hrest

theorem Outlines.unique (h : Outlines free text parts) (h' : Outlines free text parts') :
    parts = parts' := by
  induction h generalizing parts' with
  | nil =>
    cases h'
    rfl
  | @identifier _ body rest parts hbody hrest _ ih =>
    generalize htext : '"' :: (body ++ '"' :: rest) = text at h'
    cases h' with
    | nil => cases htext
    | @identifier _ body' rest' parts' hbody' hrest' h' =>
      have hsame : body ++ '"' :: rest = body' ++ '"' :: rest' := (List.cons.inj htext).2
      -- the reader stops at the closing quote of either of them
      have hclosed := hbody.afterQuote? (by decide) hrest
      rw [hsame, hbody'.afterQuote? (by decide) hrest'] at hclosed
      obtain rfl := Option.some.inj hclosed
      obtain rfl := List.append_cancel_right hsame
      rw [ih h']
    | parameter => cases (List.cons.inj htext).1
    | other hquote => exact absurd (List.cons.inj htext).1.symm hquote
  | @parameter digits rest parts hdigits hrest _ ih =>
    generalize htext : '$' :: (digits ++ rest) = text at h'
    cases h' with
    | nil => cases htext
    | identifier => cases (List.cons.inj htext).1
    | @parameter digits' rest' parts' hdigits' hrest' h' =>
      have hsame : digits ++ rest = digits' ++ rest' := (List.cons.inj htext).2
      have htake := takeWhile_append_of_forall hdigits.2 hrest
      rw [hsame, takeWhile_append_of_forall hdigits'.2 hrest'] at htake
      subst htake
      obtain rfl := List.append_cancel_left hsame
      rw [ih h']
    | other _ hdollar =>
      obtain ⟨rfl, rfl⟩ := List.cons.inj htext
      have hhead := hdollar rfl rfl
      rw [hdigits.any_head?_append] at hhead
      cases hhead
  | @other free c rest parts hquote hdollar _ ih =>
    generalize htext : c :: rest = text at h'
    cases h' with
    | nil => cases htext
    | identifier => exact absurd (List.cons.inj htext).1 hquote
    | parameter hdigits =>
      obtain ⟨rfl, rfl⟩ := List.cons.inj htext
      have hhead := hdollar rfl rfl
      rw [hdigits.any_head?_append] at hhead
      cases hhead
    | other _ _ h' =>
      obtain ⟨rfl, rfl⟩ := List.cons.inj htext
      exact ih h'

/-! ### The outline of what the scan writes -/

/-- What is written for a token begins like the token, or it is a question mark or a space. -/
theorem IsToken.head?_written (h : IsToken free token after) (more : List Char) :
    (token.written true ++ more).head? = some '?' ∨ (token.written true ++ more).head? = some ' ' ∨
      (token.written true ++ more).head? = (token.text ++ after).head? := by
  cases h with
  | standardString | escapeString | dollarQuoted | number => exact .inl rfl
  | lineComment | blockComment | blanks => exact .inr (.inl rfl)
  | quotedIdentifier | parameter | character => exact .inr (.inr rfl)

/-- What follows a token in the written text: it begins like what follows the token in the
statement, or with a question mark or a space. -/
def Follows (after more : List Char) : Prop :=
  more.head? = some '?' ∨ more.head? = some ' ' ∨ more.head? = after.head?

/-- A token adds to the outline of what is written behind it if it is a quoted identifier or a
parameter. -/
theorem IsToken.outlines {more : List Char} (h : IsToken free token after)
    (hspaces : spaces = false → free = true)
    (hmore : token.isGap = false → Follows after more) (hrest : Outlines token.free more parts) :
    Outlines free (token.written spaces ++ more) (token.kept?.toList ++ parts) := by
  have avoid : ∀ {p : Char → Bool}, token.isGap = false → p '?' = false → p ' ' = false →
      after.head?.any p = false → more.head?.any p = false := by
    intro p hgap hmark hspace hafter
    rcases hmore hgap with hhead | hhead | hhead <;> rw [hhead]
    · exact hmark
    · exact hspace
    · exact hafter
  cases h with
  | standardString | escapeString | dollarQuoted | number =>
    exact .other (by decide) (fun h => absurd h (by decide)) hrest
  | @quotedIdentifier _ body _ hbody hafter =>
    have hquote : more.head?.any (· == '"') = false := by
      refine avoid rfl rfl rfl ?_
      cases after with
      | nil => rfl
      | cons d after => simpa using hafter
    have hmore : more.head? ≠ some '"' := by
      intro hhead
      rw [hhead] at hquote
      cases hquote
    simpa [Token.written, Token.kept?] using Outlines.identifier hbody hmore hrest
  | parameter hdigits hend =>
    simpa [Token.written, Token.kept?] using
      Outlines.parameter hdigits (avoid rfl rfl rfl hend) hrest
  | lineComment | blockComment | blanks =>
    cases spaces with
    | false =>
      rw [hspaces rfl]
      exact hrest
    | true => exact .other (by decide) (fun h => absurd h (by decide)) hrest
  | @character _ c _ hplain =>
    refine .other ?_ ?_ hrest
    · rintro rfl
      exact hplain .quotedIdentifier
    · rintro rfl hfree
      refine avoid rfl rfl rfl ?_
      cases after with
      | nil => rfl
      | cons d after =>
        rw [List.head?_cons, Option.any_some, ← Bool.not_eq_true]
        exact fun digit => hplain (.outside hfree (.parameter digit))

theorem Tokenizes.follows (h : Tokenizes free text tokens free' []) :
    Follows text (writtenFor true tokens) := by
  cases h with
  | done => exact .inr (.inr rfl)
  | token htoken _ => exact htoken.head?_written _

/-- The outline of what the scan writes for tokens are their quoted identifiers and parameters. -/
theorem Tokenizes.outlines (h : Tokenizes free text tokens free' [])
    (hspaces : spaces = false → free = true) :
    Outlines free (writtenFor spaces tokens) (keptTexts tokens) := by
  generalize hnil : [] = rest at h
  induction h generalizing spaces with
  | done => exact .nil
  | @token free free' token tokens after rest htoken htokens ih =>
    subst hnil
    have hnext : (!token.isGap) = false → token.free = true := by
      cases token <;> simp [Token.isGap, Token.free]
    have hmore : token.isGap = false → Follows after (writtenFor (!token.isGap) tokens) := by
      intro hgap
      rw [hgap]
      exact htokens.follows
    rw [keptTexts_cons]
    exact htoken.outlines hspaces hmore (ih hnext rfl)

/-! ### Masked digits -/

/-- In the masked text something follows a token as in the text itself. -/
theorem Follows.maskFrom {more : List Char} (h : Follows after more)
    (hstretch : stretch ≠ .masked) :
    Follows after (maskFrom stretch more) := by
  cases more with
  | nil => exact h
  | cons d more =>
    have hmask : stretch.mask d = [d] ∨ stretch.mask d = ['?'] := by
      cases stretch <;> cases digit : d.isDigit <;> simp_all [Stretch.mask]
    rw [Redaction.maskFrom]
    rcases hmask with hmask | hmask <;> rw [hmask]
    · exact h
    · exact .inl rfl

/-- Apart from masked digits the two scans are outside of words at the same places. -/
theorem Lane.free_eq (h : Lane stretch free spaces written text) (hstretch : stretch ≠ .masked) :
    stretch.free = free := by
  cases h with
  | masked => exact absurd rfl hstretch
  | _ => rfl

/-- Masking digits does not change the outline of what the scan writes. -/
theorem Lane.outlines (h : Lane stretch free spaces written text)
    (hread : Tokenizes free text tokens free' []) (hsteady : SteadyFrom free text) :
    Outlines stretch.free (maskFrom stretch (writtenFor spaces tokens)) (keptTexts tokens) := by
  generalize hnil : [] = rest at hread
  induction hread generalizing stretch spaces written with
  | done => exact .nil
  | @token free free' token tokens after rest htoken htokens ih =>
    subst hnil
    obtain ⟨hlane, -⟩ := h.step 0 htoken hsteady
    have hrest := ih hlane (hsteady.step htoken) rfl
    rw [keptTexts_cons, writtenFor, maskFrom_append]
    rcases token.isDigit_or with ⟨d, rfl, digit⟩ | hplain
    · obtain ⟨hword, hnext⟩ := h.of_digit htoken digit
      rw [Token.written, Stretch.after, List.foldl_cons, List.foldl_nil, hnext] at hrest
      rw [Token.written, Stretch.after, List.foldl_cons, List.foldl_nil, hnext]
      rcases hword with rfl | rfl
      · rw [maskFrom_word_digit digit]
        exact .other (by decide) (fun h => absurd h (by decide)) hrest
      · rw [maskFrom_masked_digit digit]
        exact hrest
    · obtain ⟨hmask, hmasked, -⟩ := h.written_eq htoken hplain
      obtain ⟨-, htoken', -⟩ := h.aligned htoken hplain
      rw [hlane.free_eq hmasked] at hrest
      rw [hmask]
      refine htoken'.outlines ?_ ?_ hrest
      · rintro rfl
        rw [h.eq_outside_of_no_spaces]
        rfl
      · intro hgap
        rw [hgap]
        exact htokens.follows.maskFrom hmasked

/-! ### Trimmed and joined texts -/

/-- What does not begin with a blank is kept. -/
theorem dropWhile_append_cons {p : Char → Bool} (hc : p c = false) (front : List Char) :
    (front ++ c :: rest).dropWhile p = front.dropWhile p ++ c :: rest := by
  induction front with
  | nil => exact List.dropWhile_cons_of_neg (by simp [hc])
  | cons d front ih =>
    by_cases hd : p d = true
    · rw [List.cons_append, List.dropWhile_cons_of_pos hd, List.dropWhile_cons_of_pos hd, ih]
    · rw [List.cons_append, List.dropWhile_cons_of_neg hd, List.dropWhile_cons_of_neg hd,
        List.cons_append]

theorem trimEnd_append_cons (hc : Text.isBlank c = false) (front : List Char) :
    Text.trimEnd (front ++ c :: rest) = front ++ c :: Text.trimEnd rest := by
  rw [Text.trimEnd, List.reverse_append, List.reverse_cons, List.append_assoc,
    List.singleton_append, dropWhile_append_cons hc]
  simp [Text.trimEnd]

theorem head?_trimEnd (text : List Char) :
    (Text.trimEnd text).head? = text.head? ∨ Text.trimEnd text = [] := by
  obtain ⟨blanks, -, htext⟩ := exists_eq_trimEnd_append text
  cases h : Text.trimEnd text with
  | nil => exact .inr rfl
  | cons c front =>
    rw [h] at htext
    rw [htext]
    exact .inl rfl

theorem any_head?_trimEnd {p : Char → Bool} (h : text.head?.any p = false) :
    (Text.trimEnd text).head?.any p = false := by
  rcases head?_trimEnd text with hhead | hnil
  · rw [hhead]
    exact h
  · rw [hnil]
    rfl

/-- Behind a character blanks are cut off, and the character with them if it is one itself. -/
theorem trimEnd_cons (c : Char) (rest : List Char) :
    Text.trimEnd (c :: rest) = c :: Text.trimEnd rest ∨
      Text.trimEnd (c :: rest) = [] ∧ Text.trimEnd rest = [] := by
  rw [Text.trimEnd, Text.trimEnd, List.reverse_cons, List.dropWhile_append]
  cases hrest : (rest.reverse.dropWhile Text.isBlank) with
  | nil =>
    cases hblank : Text.isBlank c with
    | true => exact .inr ⟨by simp [hblank], rfl⟩
    | false => exact .inl (by simp [hblank])
  | cons d more => exact .inl (by simp)

theorem Outlines.trimEnd (h : Outlines free text parts) :
    Outlines free (Text.trimEnd text) parts := by
  induction h with
  | nil => exact .nil
  | @identifier free body rest parts hbody hrest _ ih =>
    have htrim : Text.trimEnd ('"' :: (body ++ '"' :: rest)) =
        '"' :: (body ++ '"' :: Text.trimEnd rest) :=
      trimEnd_append_cons (by decide) ('"' :: body)
    rw [htrim]
    refine .identifier hbody ?_ ih
    rcases head?_trimEnd rest with hhead | hnil
    · rwa [hhead]
    · rw [hnil]
      exact nofun
  | @parameter digits rest parts hdigits hrest _ ih =>
    obtain ⟨front, d, rfl, digit⟩ := hdigits.exists_eq_concat
    have hblank : Text.isBlank d = false := by
      rw [← Bool.not_eq_true]
      intro hblank
      rw [isDigit_eq_false_of_isBlank hblank] at digit
      cases digit
    have htrim : Text.trimEnd ('$' :: (front ++ [d] ++ rest)) =
        '$' :: (front ++ [d] ++ Text.trimEnd rest) := by
      rw [List.append_assoc, List.append_assoc]
      exact trimEnd_append_cons hblank ('$' :: front)
    rw [htrim]
    exact .parameter hdigits (any_head?_trimEnd hrest) ih
  | @other free c rest parts hquote hdollar _ ih =>
    rcases trimEnd_cons c rest with htrim | ⟨htrim, hnil⟩
    · rw [htrim]
      exact .other hquote (fun hc hfree => any_head?_trimEnd (hdollar hc hfree)) ih
    · rw [hnil] at ih
      obtain rfl := ih.unique .nil
      rw [htrim]
      exact .nil

theorem Outlines.trim (h : Outlines true text parts) : Outlines true (Text.trim text) parts := by
  rw [Text.trim]
  refine Outlines.trimEnd ?_
  induction text with
  | nil => exact h
  | cons c rest ih =>
    by_cases hblank : Text.isBlank c = true
    · have hrest := h.of_cons (ne_of_isBlank hblank (by decide)) (ne_of_isBlank hblank (by decide))
      rw [isWordChar_of_isBlank hblank] at hrest
      rw [List.dropWhile_cons_of_pos hblank]
      exact ih hrest
    · rwa [List.dropWhile_cons_of_neg hblank]

theorem IsQuotedBody.of_append {quote : Char} {front body : List Char} (hfront : quote ∉ front)
    (h : IsQuotedBody quote false (front ++ body)) : IsQuotedBody quote false body := by
  induction front with
  | nil => exact h
  | cons c front ih =>
    obtain ⟨hc, hfront⟩ : c ≠ quote ∧ quote ∉ front := by simpa [eq_comm, not_or] using hfront
    refine ih hfront ?_
    rw [List.cons_append] at h
    generalize front ++ body = text at h
    cases h with
    | plain _ _ h => exact h
    | doubled => exact absurd rfl hc
    | escaped hescape => cases hescape

/-- Joining lists leaves what stands between quotes well formed. -/
theorem IsQuotedBody.collapse {body : List Char} (hseparator : '"' ∉ separator)
    (h : IsQuotedBody '"' false body) : IsQuotedBody '"' false (collapse separator body) := by
  generalize hquote : '"' = quote at h
  induction h with
  | nil => exact .nil
  | @plain c rest hc _ _ ih =>
    subst hquote
    rcases collapse_cons separator rest c with ⟨hkept, -⟩ | ⟨more, rfl, hdone, hjoined⟩
    · rw [hkept]
      exact .plain hc nofun ih
    · rw [hdone] at ih
      rw [hjoined]
      have hlist : '"' ∉ separator ++ ['?'] := by simpa using hseparator
      refine .plain hc nofun (.of_append hlist ?_)
      rwa [List.append_assoc]
  | doubled _ ih =>
    subst hquote
    rw [collapse_cons_of_ne (by decide), collapse_cons_of_ne (by decide)]
    exact .doubled ih
  | escaped hescape => cases hescape

/-- Joining the lists of a text joins those in its quoted identifiers. -/
theorem Outlines.collapse (hseparator : separator = [','] ∨ separator = [',', ' '])
    (h : Outlines free text parts) :
    Outlines free (collapse separator text) (parts.map (collapse separator)) := by
  have hquote : '"' ∉ separator ++ ['?'] := by rcases hseparator with rfl | rfl <;> decide
  induction h with
  | nil => exact .nil
  | @identifier free body rest parts hbody hrest _ ih =>
    have hsplit : ∀ back, Redaction.collapse separator ('"' :: (body ++ '"' :: back)) =
        '"' :: (Redaction.collapse separator body ++ '"' :: Redaction.collapse separator back) := by
      intro back
      rw [collapse_cons_of_ne (by decide), collapse_append_cons hquote]
    rw [hsplit, List.map_cons, hsplit]
    refine .identifier (hbody.collapse fun hmem => hquote (List.mem_append_left _ hmem)) ?_ ih
    rwa [head?_collapse]
  | @parameter digits rest parts hdigits hrest _ ih =>
    have hmark : '?' ∉ '$' :: digits := by
      intro hmem
      rcases List.mem_cons.mp hmem with hmem | hmem
      · cases hmem
      · cases hdigits.2 '?' hmem
    have hpart : Redaction.collapse separator ('$' :: digits ++ []) = '$' :: digits ++ [] :=
      collapse_append_of_not_mem hmark
    rw [List.append_nil] at hpart
    rw [← List.cons_append, collapse_append_of_not_mem hmark, List.map_cons, hpart]
    refine .parameter hdigits ?_ ih
    rwa [head?_collapse]
  | @other free c rest parts hc hdollar _ ih =>
    rcases collapse_cons separator rest c with ⟨hkept, -⟩ | ⟨more, rfl, hdone, hjoined⟩
    · rw [hkept]
      refine .other hc (fun h hfree => ?_) ih
      rw [head?_collapse]
      exact hdollar h hfree
    · -- the outline goes on behind the separator and the mark, which add nothing to it
      rw [hdone] at ih
      rw [hjoined]
      refine .other hc (fun h => absurd h (by decide)) ?_
      rcases hseparator with rfl | rfl
      · exact (ih.of_cons (by decide) (by decide)).of_cons (by decide) (by decide)
      · exact ((ih.of_cons (by decide) (by decide)).of_cons (by decide) (by decide)).of_cons
          (by decide) (by decide)

theorem Outlines.joined (h : Outlines free text parts) :
    Outlines free (joined text) (parts.map joined) := by
  have hjoined := (h.collapse (.inr rfl)).collapse (.inl rfl)
  rwa [List.map_map] at hjoined

/-! ### The outline of what is left of a statement -/

/-- A text in which no digits within words are left to replace is settled if they are kept. -/
theorem Settled.of_replaceDigits {quoted : Bool} {p : Place} (h : Settled true quoted p text) :
    Settled false quoted p text := by
  induction text generalizing quoted p with
  | nil => exact h
  | cons c rest ih =>
    by_cases hc : c = '"'
    · subst hc
      rw [settled_quote] at h ⊢
      exact ih h
    · rw [settled_cons hc] at h ⊢
      refine ⟨fun hquoted => ?_, ih h.2⟩
      have hstands := h.1 hquoted
      exact { hstands with
        place_of_digit := fun digit => ⟨(hstands.place_of_digit digit).1, nofun⟩ }

/-- What is left of a statement stays as it is, and all the more so if digits within words are
kept. -/
theorem strip_false_of_strip {statement : List Char}
    (h : strip replaceDigits statement = .ok text) :
    strip false text = .ok text := by
  have hstripped := isStripped_of_strip h
  cases replaceDigits with
  | false => exact hstripped.strip_eq
  | true =>
    have hkept : IsStripped false text :=
      { hstripped with settled := hstripped.settled.of_replaceDigits }
    exact hkept.strip_eq

theorem Tokenizes.outlines_of_strip {statement : List Char}
    (h : Tokenizes true statement tokens free [])
    (hsteady : replaceDigits = true → Steady statement)
    (hstrip : strip replaceDigits statement = .ok text) :
    Outlines true text ((keptTexts tokens).map Redaction.joined) := by
  cases replaceDigits with
  | false =>
    rw [h.strip_eq] at hstrip
    obtain rfl := Except.ok.inj hstrip
    exact (h.outlines fun _ => rfl).trim.joined
  | true =>
    rw [h.strip_masked_eq (hsteady rfl)] at hstrip
    obtain rfl := Except.ok.inj hstrip
    have hstart : Lane .outside true false [] statement := .outside aligned_start
    exact (hstart.outlines h (hsteady rfl)).trim.joined

/-- The kept texts of a reading stand in the text. -/
theorem Tokenizes.infix_of_mem_keptTexts {part : List Char}
    (h : Tokenizes free text tokens free' rest) (hpart : part ∈ keptTexts tokens) :
    part <:+: text := by
  obtain ⟨token, htoken, hkept⟩ := List.mem_filterMap.mp hpart
  obtain ⟨front, back, rfl⟩ := List.append_of_mem htoken
  have htext : token.text = part := by
    cases token <;> simp_all [Token.kept?, Token.text]
  rw [h.eq_append]
  exact ⟨front.flatMap Token.text, back.flatMap Token.text ++ rest, by simp [htext]⟩

/-- The quoted identifiers and parameters of a redacted statement are those of the statement, in the
same order, with the lists of question marks in them joined. They are the same texts exactly if
there are no such lists. If digits within words are replaced, this is so for steady statements. -/
theorem keptTexts_of_redact (document statement : String) (options : Options) (redacted : Redacted)
    (hoptions : Options.parse? document = some options)
    (hsteady : options.replaceDigits = true → Steady statement.toList)
    (h : redact document statement = .ok redacted) :
    (∃ tokens free, Tokenizes true statement.toList tokens free []) ∧
      (∃ tokens free, Tokenizes true redacted.text.toList tokens free []) ∧
      ∀ tokens free tokens' free', Tokenizes true statement.toList tokens free [] →
        Tokenizes true redacted.text.toList tokens' free' [] →
        keptTexts tokens' = (keptTexts tokens).map joined ∧
        (keptTexts tokens' = keptTexts tokens ↔ ∀ part ∈ keptTexts tokens,
          ¬ twoMarks [','] <:+: part ∧ ¬ twoMarks [',', ' '] <:+: part) := by
  simp only [redact, hoptions] at h
  obtain ⟨hstrip, -⟩ := exists_strip_of_redactWith h
  have hagain := strip_false_of_strip hstrip
  have hstripped := isStripped_of_strip hstrip
  refine ⟨?_, exists_tokenizes_of_strip hagain, ?_⟩
  · cases hreplace : options.replaceDigits with
    | false =>
      rw [hreplace] at hstrip
      exact exists_tokenizes_of_strip hstrip
    | true =>
      rw [hreplace, strip_replaceDigits (hsteady hreplace)] at hstrip
      cases hkeep : strip false statement.toList with
      | ok text => exact exists_tokenizes_of_strip hkeep
      | error u =>
        rw [hkeep] at hstrip
        cases hstrip
  · intro tokens free tokens' free' hread hread'
    -- the redacted statement is what is left of itself, so its outline is known twice
    have hkeep : false = true → Steady redacted.text.toList :=
      fun hfalse => absurd hfalse Bool.false_ne_true
    have hsame := (hread.outlines_of_strip hsteady hstrip).unique
      (hread'.outlines_of_strip hkeep hagain)
    have hself : (keptTexts tokens').map joined = (keptTexts tokens').map id := by
      refine List.map_congr_left fun part hpart => joined_eq_self_iff.mpr ?_
      have hinside := hread'.infix_of_mem_keptTexts hpart
      exact ⟨fun hlist => hstripped.no_list (hlist.trans hinside),
        fun hlist => hstripped.no_spacedList (hlist.trans hinside)⟩
    rw [List.map_id] at hself
    rw [hself] at hsame
    refine ⟨hsame.symm, ?_⟩
    rw [← hsame, ← List.map_id (keptTexts tokens), List.map_map, List.map_inj_left]
    simp [joined_eq_self_iff]

/-- Of `"a""?"=$1--$2` the identifier and the first parameter are kept, and nothing else is one. -/
theorem keptTexts_of_redact_comment :
    ∃ redacted, redact "" "\"a\"\"?\"=$1--$2" = .ok redacted ∧
      (Options.default.replaceDigits = true → Steady "\"a\"\"?\"=$1--$2".toList) ∧
      ∀ tokens free, Tokenizes true redacted.text.toList tokens free [] →
        keptTexts tokens = ["\"a\"\"?\"".toList, "$1".toList] := by
  have hstrip : strip false "\"a\"\"?\"=$1--$2".toList = .ok "\"a\"\"?\"=$1".toList :=
    strip_eq_of_place? 4 " 1$=\"?\"\"a\"".toList (by decide) (by decide)
  have hsteady : Options.default.replaceDigits = true → Steady "\"a\"\"?\"=$1--$2".toList := nofun
  have hread : Tokenizes true "\"a\"\"?\"=$1--$2".toList
      [.quotedIdentifier "\"a\"\"?\"".toList, .character '=', .parameter "$1".toList,
        .lineComment "--$2".toList] true [] := by
    have hbody : IsQuotedBody '"' false ['a', '"', '"', '?'] :=
      .plain (by decide) nofun (.doubled (.plain (by decide) nofun .nil))
    have hdigits : IsDigits ['1'] := ⟨List.cons_ne_nil _ _, List.forall_mem_singleton.mpr rfl⟩
    have hcomment : '\n' ∉ ['$', '2'] := by decide
    have hequal : ¬ Begins true "=$1--$2".toList := by decide
    exact .token (.quotedIdentifier hbody (by decide)) (.token (.character hequal)
      (.token (.parameter hdigits rfl) (.token (.lineComment hcomment (.inl rfl)) .done)))
  obtain ⟨mentions, hredact⟩ := exists_redact_of_strip (by decide) hstrip
  refine ⟨_, hredact, hsteady, fun tokens free hread' => ?_⟩
  exact ((keptTexts_of_redact _ _ Options.default _ rfl hsteady hredact).2.2 _ _ _ _ hread hread').1

/-- The list of question marks in the identifier of `SELECT "a?, ?b"` is joined. -/
theorem keptTexts_ne_of_quoted_list :
    ∃ redacted tokens, redact "" "SELECT \"a?, ?b\"" = .ok redacted ∧
      Tokenizes true "SELECT \"a?, ?b\"".toList tokens true [] ∧
      keptTexts tokens = ["\"a?, ?b\"".toList] ∧
      ∀ tokens' free', Tokenizes true redacted.text.toList tokens' free' [] →
        keptTexts tokens' ≠ keptTexts tokens := by
  have hstrip : strip false "SELECT \"a?, ?b\"".toList = .ok "SELECT \"a?b\"".toList :=
    strip_eq_of_place? 8 "\"b? ,?a\" TCELES".toList (by decide) (by decide)
  have hread : Tokenizes true "SELECT \"a?, ?b\"".toList ("SELECT".toList.map .character ++
      [.blanks [' '], .quotedIdentifier "\"a?, ?b\"".toList]) true [] := by
    have hbody : IsQuotedBody '"' false ['a', '?', ',', ' ', '?', 'b'] :=
      .plain (by decide) nofun (.plain (by decide) nofun (.plain (by decide) nofun
        (.plain (by decide) nofun (.plain (by decide) nofun (.plain (by decide) nofun .nil)))))
    have hblanks : ∀ c ∈ [' '], Text.isBlank c = true :=
      List.forall_mem_singleton.mpr rfl
    exact .token (.character (by decide)) (.token (.character (by decide))
      (.token (.character (by decide)) (.token (.character (by decide))
      (.token (.character (by decide)) (.token (.character (by decide))
      (.token (.blanks (List.cons_ne_nil _ _) hblanks rfl)
      (.token (.quotedIdentifier hbody (by decide)) .done)))))))
  obtain ⟨mentions, hredact⟩ := exists_redact_of_strip (by decide) hstrip
  refine ⟨_, _, hredact, hread, rfl, fun tokens' free' hread' hsame => ?_⟩
  have hmem : "\"a?, ?b\"".toList ∈ keptTexts tokens' := by
    rw [hsame]
    exact List.mem_singleton_self _
  have hinside : "\"a?, ?b\"".toList <:+: "SELECT \"a?b\"".toList :=
    hread'.infix_of_mem_keptTexts hmem
  have hcomma : ',' ∈ "SELECT \"a?b\"".toList := hinside.subset (by decide)
  revert hcomma
  decide

end Redaction

end QueryTelemetry
