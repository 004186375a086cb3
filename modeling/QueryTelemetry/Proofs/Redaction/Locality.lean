import QueryTelemetry.Proofs.Redaction.Reading

/-!
# Lexemes do not look far into what follows them

To find the end of a lexeme the reader looks at most a few characters beyond it. So a lexeme that
ends in front of some text is read in the same way in front of another one, if the other text begins
with the same character, with a space or not at all, and does not go on with an exponent or a tag
(`Resembles`). The exception is a comment that goes up to the end of its line: what follows it has
to be a line break or nothing. On its way to the end of a lexeme the scan does not notice the change
(`Reaches.replace`). In particular it comes to the end of a lexeme as if the statement ended there
(`Reaches.restrict`).
-/

namespace QueryTelemetry

namespace Redaction

/-! ### Searching in the front part of a text -/

section Search

variable {p : Char → Bool} {text front back rest rest' : List Char}

/-- Of a text that is no longer than what follows, nothing stands in front of it. -/
theorem eq_nil_of_length_le (h : (back ++ rest).length ≤ rest.length) : back = [] := by
  rw [List.length_append] at h
  exact List.length_eq_zero_iff.mp (by omega)

/-- A run that ends in front of a text ends there without it. -/
theorem dropWhile_eq_of_append (h : (front ++ rest).dropWhile p = back ++ rest) :
    front.dropWhile p = back := by
  rw [List.dropWhile_append] at h
  split at h
  · rename_i hnothing
    have hback : back = [] := eq_nil_of_length_le (h ▸ length_dropWhile_le p rest)
    rw [hback, List.isEmpty_iff.mp hnothing]
  · exact List.append_cancel_right h

/-- A run that ends in front of a text takes as much without it. -/
theorem takeWhile_append_of_dropWhile (h : (front ++ rest).dropWhile p = back ++ rest) :
    (front ++ rest).takeWhile p = front.takeWhile p := by
  have hwhole : (front ++ rest).takeWhile p ++ back ++ rest = front ++ rest := by
    rw [List.append_assoc, ← h, List.takeWhile_append_dropWhile]
  have hfront : front.takeWhile p ++ back = front := by
    rw [← dropWhile_eq_of_append h, List.takeWhile_append_dropWhile]
  exact List.append_cancel_right ((List.append_cancel_right hwhole).trans hfront.symm)

/-- A run that ends in front of a text ends in front of another one on which it does not go on. -/
theorem dropWhile_append_of_eq (h : (front ++ rest).dropWhile p = back ++ rest)
    (hrest : front.dropWhile p = [] → rest'.head?.any p = true → rest.head?.any p = true) :
    (front ++ rest').dropWhile p = back ++ rest' := by
  have hback := dropWhile_eq_of_append h
  rw [List.dropWhile_append] at h ⊢
  split at h
  · rename_i hnothing
    have hnil := List.isEmpty_iff.mp hnothing
    have hend : rest'.head?.any p = false := by
      rw [← Bool.not_eq_true]
      intro hgoes
      have hshorter := length_dropWhile_lt (hrest hnil hgoes)
      rw [h, List.length_append] at hshorter
      omega
    rw [if_pos hnothing, dropWhile_eq_self hend, ← hback, hnil, List.nil_append]
  · rename_i hsomething
    rw [if_neg hsomething, hback]

/-- What follows a text is shorter than the text with what follows. -/
theorem length_lt_of_afterFirst? {needle text after : List Char} (hneedle : needle ≠ [])
    (h : Text.afterFirst? needle text = some after) : after.length < text.length := by
  obtain ⟨before, rfl⟩ := Text.exists_eq_append_of_afterFirst? h
  have := List.length_pos_iff.mpr hneedle
  simp only [List.length_append]
  omega

/-- An occurrence in the front part is the first one whatever stands in the rest. -/
theorem afterFirst?_append_of_eq {needle : List Char} (hneedle : needle ≠ [])
    (h : Text.afterFirst? needle (front ++ rest) = some (back ++ rest)) :
    Text.afterFirst? needle (front ++ rest') = some (back ++ rest') := by
  induction front with
  | nil =>
    have := length_lt_of_afterFirst? hneedle h
    simp only [List.nil_append, List.length_append] at this
    omega
  | cons c front ih =>
    simp only [List.cons_append, Text.afterFirst?] at h ⊢
    by_cases found : needle <+: c :: (front ++ rest)
    · rw [if_pos (List.isPrefixOf_iff_prefix.mpr found), Option.some.injEq] at h
      -- the occurrence ends in front of `rest`, since `back ++ rest` is left of the text
      obtain ⟨more, hmore⟩ := found
      rw [← hmore, List.drop_left] at h
      have hfront : needle ++ back = c :: front :=
        List.append_cancel_right (by rw [List.append_assoc, ← h, hmore, List.cons_append])
      have hrest : c :: (front ++ rest') = needle ++ (back ++ rest') := by
        rw [← List.cons_append, ← hfront, List.append_assoc]
      rw [hrest, if_pos (List.isPrefixOf_iff_prefix.mpr (List.prefix_append _ _)), List.drop_left]
    · rw [if_neg fun found' => found (List.isPrefixOf_iff_prefix.mp found')] at h
      have inside := ih h
      -- there is room for the needle behind `c`, so it would have been found in `front` before
      have hnot : ¬ needle <+: c :: (front ++ rest') := by
        intro found'
        obtain ⟨before, hbefore⟩ := Text.exists_eq_append_of_afterFirst? h
        have hfront : front = before ++ needle ++ back :=
          List.append_cancel_right (by rw [hbefore, ← List.append_assoc])
        have room : needle <+: c :: front := by
          refine List.prefix_of_prefix_length_le found'
            (by rw [← List.cons_append]; exact List.prefix_append _ _) ?_
          simp only [hfront, List.length_append, List.length_cons]
          omega
        exact found (room.trans (by rw [← List.cons_append]; exact List.prefix_append _ _))
      rw [if_neg fun found' => hnot (List.isPrefixOf_iff_prefix.mp found'), inside]

end Search

/-! ### Quoted texts -/

section Quotes

variable {quote : Char} {escapes : Bool} {front back rest rest' : List Char}

theorem afterQuote?_cons {c : Char} (hescape : (escapes && c == '\\') = false) (hc : c ≠ quote) :
    afterQuote? quote escapes (c :: rest) = afterQuote? quote escapes rest := by
  cases rest with
  | nil => simp [afterQuote?, hc]
  | cons d rest => rw [afterQuote?, if_neg (by simp [hescape]), if_neg hc]

theorem afterQuote?_doubled (hescape : (escapes && quote == '\\') = false) :
    afterQuote? quote escapes (quote :: quote :: rest) = afterQuote? quote escapes rest := by
  rw [afterQuote?, if_neg (by simp [hescape]), if_pos rfl, if_pos rfl]

theorem afterQuote?_closed (hescape : (escapes && quote == '\\') = false)
    (hrest : rest.head? ≠ some quote) :
    afterQuote? quote escapes (quote :: rest) = some rest := by
  cases rest with
  | nil => rw [afterQuote?, if_neg (by simp [hescape]), if_pos rfl]
  | cons d rest =>
    have hd : d ≠ quote := by simpa using hrest
    rw [afterQuote?, if_neg (by simp [hescape]), if_pos rfl, if_neg hd]

theorem length_lt_of_afterQuote? {text after : List Char}
    (h : afterQuote? quote escapes text = some after) : after.length < text.length := by
  fun_induction afterQuote? quote escapes text with
  | case1 => simp at h
  | case2 => simp at h
  | case3 => simp [← Option.some.inj h]
  | case4 => simp at h
  | case7 => simp [← Option.some.inj h]
  | case5 | case6 | case8 =>
    rename_i ih
    have := ih h
    simp only [List.length_cons] at *
    omega

/-- A single character in front of what follows a quoted text is the closing quote. -/
private theorem eq_quote_of_afterQuote?_cons {c : Char}
    (h : afterQuote? quote escapes (c :: rest) = some (back ++ rest)) :
    c = quote ∧ (escapes && quote == '\\') = false ∧ rest.head? ≠ some quote ∧ back = [] := by
  have tooLong : ∀ {text : List Char}, afterQuote? quote escapes text = some (back ++ rest) →
      text.length ≤ rest.length → False := by
    intro text htext hle
    have := length_lt_of_afterQuote? htext
    rw [List.length_append] at this
    omega
  cases rest with
  | nil =>
    rw [afterQuote?] at h
    split at h
    · cases h
    · rename_i hescape
      split at h
      · rename_i hc
        subst hc
        have hback : back = [] := by simpa using h.symm
        exact ⟨rfl, by simpa using hescape, by simp, hback⟩
      · cases h
  | cons d rest =>
    rw [afterQuote?] at h
    split at h
    · exact (tooLong h (by simp)).elim
    · rename_i hescape
      split at h
      · rename_i hc
        subst hc
        split at h
        · exact (tooLong h (by simp)).elim
        · rename_i hd
          have hback : back = [] := by simpa using Option.some.inj h
          exact ⟨rfl, by simpa using hescape, by simpa using hd, hback⟩
      · exact (tooLong h (Nat.le_refl _)).elim

/-- A quoted text that is closed in the front part is closed there whatever follows, unless that is
another quote. The reader takes one character or two at once, and so does the induction. -/
theorem afterQuote?_append_of_eq (hrest : rest'.head? = some quote → rest.head? = some quote) :
    ∀ {front back : List Char},
      afterQuote? quote escapes (front ++ rest) = some (back ++ rest) →
        afterQuote? quote escapes (front ++ rest') = some (back ++ rest')
  | [], back, h => by
    have := length_lt_of_afterQuote? h
    simp only [List.nil_append, List.length_append] at this
    omega
  | [c], back, h => by
    obtain ⟨rfl, hescape, hclosed, rfl⟩ := eq_quote_of_afterQuote?_cons h
    exact afterQuote?_closed hescape fun hquote => hclosed (hrest hquote)
  | c :: e :: front, back, h => by
    simp only [List.cons_append, afterQuote?] at h ⊢
    split at h
    · rename_i hescape
      rw [if_pos hescape]
      exact afterQuote?_append_of_eq hrest h
    · rename_i hescape
      rw [if_neg hescape]
      split at h
      · rename_i hquote
        rw [if_pos hquote]
        split at h
        · rename_i hdoubled
          rw [if_pos hdoubled]
          exact afterQuote?_append_of_eq hrest h
        · rename_i hclosed
          rw [if_neg hclosed]
          rw [Option.some.injEq, ← List.cons_append] at h
          rw [Option.some.injEq, ← List.cons_append, List.append_cancel_right h]
      · rename_i hother
        rw [if_neg hother]
        rw [← List.cons_append] at h ⊢
        exact afterQuote?_append_of_eq hrest h

end Quotes

/-! ### What may follow instead -/

/-- Behind a lexeme the text `rest'` is no different from `rest`: it begins with the same character,
with a space or not at all, it goes on neither with an exponent nor with the sign in one, and it
completes a tag only if `rest` does. -/
structure Resembles (rest rest' : List Char) : Prop where
  head : ∀ c, rest'.head? = some c → c ≠ ' ' → rest.head? = some c
  no_exponent : ∀ c, rest'.head? = some c → ¬ (c = 'e' ∨ c = 'E') ∧ ¬ (c = '+' ∨ c = '-')
  tag : (rest'.dropWhile isTagChar).head? = some '$' → (rest.dropWhile isTagChar).head? = some '$'

variable {front back rest rest' : List Char}

/-- The end of the statement resembles everything. -/
theorem resembles_nil : Resembles rest [] := by
  refine ⟨fun c h => ?_, fun c h => ?_, fun h => ?_⟩ <;> cases h

/-- A space resembles everything. -/
theorem resembles_space {tail : List Char} : Resembles rest (' ' :: tail) := by
  refine ⟨fun c hc hspace => ?_, fun c hc => ?_, fun h => ?_⟩
  · exact absurd (Option.some.inj hc).symm hspace
  · obtain rfl : ' ' = c := Option.some.inj hc
    decide
  · rw [List.dropWhile_cons_of_neg (by decide)] at h
    cases h

namespace Resembles

theorem any_head? (h : Resembles rest rest') {p : Char → Bool} (hp : p ' ' = false)
    (hrest : rest'.head?.any p = true) : rest.head?.any p = true := by
  cases hc : rest'.head? with
  | none =>
    rw [hc] at hrest
    cases hrest
  | some c =>
    rw [hc] at hrest
    have hspace : c ≠ ' ' := by
      rintro rfl
      rw [Option.any_some, hp] at hrest
      cases hrest
    rwa [h.head c hc hspace]

theorem head?_append (h : Resembles rest rest') {c : Char} (hc : c ≠ ' ')
    (hrest : (front ++ rest').head? = some c) : (front ++ rest).head? = some c := by
  cases front with
  | nil => exact h.head c hrest hc
  | cons d front => exact hrest

theorem afterSign_eq (h : Resembles rest rest') : afterSign rest' = rest' := by
  cases rest' with
  | nil => rfl
  | cons c tail => exact if_neg (h.no_exponent c rfl).2

theorem afterExponent_eq (h : Resembles rest rest') : afterExponent rest' = rest' := by
  cases rest' with
  | nil => rfl
  | cons c tail => exact if_neg fun hmark => (h.no_exponent c rfl).1 hmark.1

/-- The digits of an exponent end in front of `rest'` if they end in front of `rest`. -/
private theorem dropWhile_exponent (h : Resembles rest rest') {mark : Char}
    (more digits : List Char)
    (hread : (if (digits ++ rest).head?.any Char.isDigit = true then
        (digits ++ rest).dropWhile Char.isDigit else mark :: (more ++ rest)) = back ++ rest) :
    (if (digits ++ rest').head?.any Char.isDigit = true then
        (digits ++ rest').dropWhile Char.isDigit else mark :: (more ++ rest')) = back ++ rest' := by
  by_cases digit : (digits ++ rest).head?.any Char.isDigit = true
  · rw [if_pos digit] at hread
    have digit' : (digits ++ rest').head?.any Char.isDigit = true := by
      cases digits with
      | nil =>
        -- the digits would be taken away from `rest`
        have hshorter := length_dropWhile_lt digit
        simp only [List.nil_append] at hread hshorter
        rw [hread, List.length_append] at hshorter
        omega
      | cons c digits => exact digit
    rw [if_pos digit']
    exact dropWhile_append_of_eq hread fun _ => h.any_head? rfl
  · rw [if_neg digit] at hread
    have digit' : ¬ (digits ++ rest').head?.any Char.isDigit = true := by
      intro digit'
      cases digits with
      | nil => exact digit (h.any_head? rfl digit')
      | cons c digits => exact digit digit'
    rw [if_neg digit', ← List.cons_append,
      List.append_cancel_right ((List.cons_append ▸ hread : (mark :: more) ++ rest = back ++ rest))]

theorem afterExponent_append (h : Resembles rest rest') {mark : Char} {more : List Char}
    (hread : afterExponent (mark :: (more ++ rest)) = back ++ rest) :
    afterExponent (mark :: (more ++ rest')) = back ++ rest' := by
  by_cases hmark : mark = 'e' ∨ mark = 'E'
  · simp only [afterExponent, hmark, true_and] at hread ⊢
    cases more with
    | nil =>
      rw [List.nil_append] at hread ⊢
      rw [h.afterSign_eq]
      -- a sign in front of digits would be taken away from `rest`
      have hsame : afterSign rest = rest ∨ ¬ (afterSign rest).head?.any Char.isDigit = true := by
        by_cases digit : (afterSign rest).head?.any Char.isDigit = true
        · rw [if_pos digit] at hread
          have hshorter := length_dropWhile_lt digit
          have hle := (afterSign_suffix rest).length_le
          rw [hread, List.length_append] at hshorter
          omega
        · exact .inr digit
      rcases hsame with hsame | digit
      · rw [hsame] at hread
        exact h.dropWhile_exponent [] [] hread
      · rw [if_neg digit] at hread
        have digit' : ¬ rest'.head?.any Char.isDigit = true := by
          intro digit'
          have hrest := h.any_head? rfl digit'
          cases rest with
          | nil => cases hrest
          | cons c tail =>
            have hsign : ¬ (c = '+' ∨ c = '-') := by
              rintro (rfl | rfl) <;> cases hrest
            exact digit (by rwa [afterSign, if_neg hsign])
        rw [if_neg digit']
        have hback : [mark] = back := List.append_cancel_right hread
        exact congrArg (· ++ rest') hback
    | cons sign more =>
      have hsign : ∀ rest, afterSign (sign :: more ++ rest) = afterSign (sign :: more) ++ rest := by
        intro rest
        simp only [List.cons_append, afterSign]
        split <;> rfl
      rw [hsign] at hread ⊢
      exact h.dropWhile_exponent (sign :: more) (afterSign (sign :: more)) hread
  · simp only [afterExponent, hmark, false_and, if_false] at hread ⊢
    rw [← List.cons_append] at hread ⊢
    rw [List.append_cancel_right hread]

/-- A number that ends in front of `rest` ends in front of `rest'`. -/
theorem afterNumber_append (h : Resembles rest rest') {text : List Char}
    (hread : afterNumber (text ++ rest) = back ++ rest) :
    afterNumber (text ++ rest') = back ++ rest' := by
  rw [afterNumber, List.dropWhile_append] at hread ⊢
  by_cases hnothing : (text.dropWhile isDigitOrPoint).isEmpty = true
  · rw [if_pos hnothing] at hread ⊢
    have hle := (afterExponent_suffix (rest.dropWhile isDigitOrPoint)).length_le
    have hend : rest'.head?.any isDigitOrPoint = false := by
      rw [← Bool.not_eq_true]
      intro hgoes
      have hshorter := length_dropWhile_lt (h.any_head? rfl hgoes)
      rw [hread, List.length_append] at hle
      omega
    rw [hread] at hle
    have hback : back = [] :=
      eq_nil_of_length_le (Nat.le_trans hle (length_dropWhile_le isDigitOrPoint rest))
    rw [dropWhile_eq_self hend, h.afterExponent_eq, hback, List.nil_append]
  · rw [if_neg hnothing] at hread ⊢
    cases hmark : text.dropWhile isDigitOrPoint with
    | nil => exact absurd (by rw [hmark]; rfl) hnothing
    | cons mark more =>
      rw [hmark] at hread
      exact h.afterExponent_append hread

end Resembles

/-! ### Lexemes -/

variable {replaceDigits : Bool} {before : Before} {first : Char} {piece : Piece}
  {written : List Char}

/-- A comment that goes up to the end of its line and ends in front of a text ends in front of
another one, if this is empty or begins a line as well. -/
theorem reads_lineComment_append
    (hline : rest = [] ∨ rest.head? = some '\n' → front.head? = some '-' → '\n' ∉ front →
      rest' = [] ∨ rest'.head? = some '\n')
    (next : (front ++ rest).head? = some '-')
    (hread : (front ++ rest).dropWhile (· != '\n') = back ++ rest) :
    Reads replaceDigits before '-' (front ++ rest') .blank (back ++ rest') := by
  cases front with
  | nil =>
    -- the comment would begin in front of `rest` and end behind its first character
    rw [List.nil_append] at hread next
    have hshorter : (rest.dropWhile (· != '\n')).length < rest.length :=
      length_dropWhile_lt (by rw [next]; rfl)
    rw [hread, List.length_append] at hshorter
    omega
  | cons c front =>
    have hend : (c :: front).dropWhile (· != '\n') = [] →
        rest'.head?.any (· != '\n') = true → rest.head?.any (· != '\n') = true := by
      intro hopen hgoes
      refine Decidable.byContradiction fun hend => ?_
      have hrest : rest = [] ∨ rest.head? = some '\n' := by
        cases rest with
        | nil => exact .inl rfl
        | cons d rest => exact .inr (by simpa using hend)
      have hfront : '\n' ∉ c :: front := by
        rw [← List.takeWhile_append_dropWhile (p := (· != '\n')) (l := c :: front), hopen,
          List.append_nil]
        intro hmem
        simpa using List.all_eq_true.mp List.all_takeWhile _ hmem
      rcases hline hrest next hfront with hnil | hbreak
      · rw [hnil] at hgoes
        cases hgoes
      · rw [hbreak] at hgoes
        cases hgoes
    rw [← dropWhile_append_of_eq hread hend]
    exact .lineComment next

/-- A parameter has its digits in front of the text in front of which it ends. -/
theorem Resembles.reads_parameter (h : Resembles rest rest') (hword : before.inWord = false)
    (digit : (front ++ rest).head?.any Char.isDigit = true)
    (hread : (front ++ rest).dropWhile Char.isDigit = back ++ rest) :
    Reads replaceDigits before '$' (front ++ rest')
      (.verbatim ('$' :: (front ++ rest).takeWhile Char.isDigit)) (back ++ rest') := by
  cases front with
  | nil =>
    rw [List.nil_append] at hread digit
    have hshorter := length_dropWhile_lt digit
    rw [hread, List.length_append] at hshorter
    omega
  | cons c front =>
    have hdrop := dropWhile_append_of_eq hread fun _ => h.any_head? (p := Char.isDigit) rfl
    rw [takeWhile_append_of_dropWhile hread, ← takeWhile_append_of_dropWhile hdrop, ← hdrop]
    exact .parameter hword digit

/-- A dollar-quoted string has both its tags in front of the text in front of which it ends. -/
theorem reads_dollarQuoted_append {body : List Char} (hword : before.inWord = false)
    (digit : (front ++ rest).head?.any Char.isDigit = false)
    (opened : (front ++ rest).dropWhile isTagChar = '$' :: body)
    (closed : Text.afterFirst? ('$' :: (front ++ rest).takeWhile isTagChar ++ ['$']) body =
      some (back ++ rest)) :
    Reads replaceDigits before '$' (front ++ rest') .placeholder (back ++ rest') := by
  have hsplit := opened
  rw [List.dropWhile_append] at hsplit
  split at hsplit
  · -- the string would begin in `rest` and end in front of it
    have hle := length_dropWhile_le isTagChar rest
    have := length_lt_of_afterFirst? (by simp) closed
    rw [hsplit, List.length_cons] at hle
    rw [List.length_append] at this
    omega
  · rename_i hsomething
    cases hopened : front.dropWhile isTagChar with
    | nil => exact absurd (by rw [hopened]; rfl) hsomething
    | cons c more =>
      rw [hopened, List.cons_append, List.cons.injEq] at hsplit
      obtain ⟨rfl, rfl⟩ := hsplit
      have opened' : (front ++ rest').dropWhile isTagChar = '$' :: more ++ rest' :=
        dropWhile_append_of_eq opened fun hnil => by rw [hopened] at hnil; cases hnil
      have digit' : (front ++ rest').head?.any Char.isDigit = false := by
        cases front with
        | nil => cases hopened
        | cons d front => exact digit
      have hopened' : (front ++ rest).dropWhile isTagChar = '$' :: more ++ rest := opened
      have htag := takeWhile_append_of_dropWhile hopened'
      rw [htag, ← takeWhile_append_of_dropWhile opened'] at closed
      exact .dollarQuoted hword digit' opened' (afterFirst?_append_of_eq (by simp) closed)

/-- A dollar that stands for itself does so in front of both texts. -/
theorem Resembles.reads_dollar (h : Resembles rest rest') (hword : before.inWord = false)
    (digit : (back ++ rest).head?.any Char.isDigit = false)
    (unopened : ((back ++ rest).dropWhile isTagChar).head? ≠ some '$') :
    Reads replaceDigits before '$' (back ++ rest') (.verbatim ['$']) (back ++ rest') := by
  refine .dollar hword ?_ fun opened => unopened ?_
  · rw [← Bool.not_eq_true] at digit ⊢
    intro digit'
    cases back with
    | nil => exact digit (h.any_head? rfl digit')
    | cons c back => exact digit digit'
  · rw [List.dropWhile_append] at opened ⊢
    split at opened
    · rename_i hnothing
      rw [if_pos hnothing]
      exact h.tag opened
    · rename_i hsomething
      rw [if_neg hsomething]
      cases hback : back.dropWhile isTagChar with
      | nil => exact absurd (by rw [hback]; rfl) hsomething
      | cons c more =>
        rw [hback] at opened
        exact opened

/-- A lexeme that ends in front of a text ends in front of another one that resembles it. The end of
the line that ends a comment has to stay. -/
theorem Reads.replace (h : Resembles rest rest')
    (hline : rest = [] ∨ rest.head? = some '\n' → first = '-' → front.head? = some '-' →
      '\n' ∉ front → rest' = [] ∨ rest'.head? = some '\n')
    (hread : Reads replaceDigits before first (front ++ rest) piece (back ++ rest)) :
    Reads replaceDigits before first (front ++ rest') piece (back ++ rest') := by
  generalize hwhole : front ++ rest = whole at hread
  generalize hafter : back ++ rest = after at hread
  cases hread with
  | stringLiteral closed =>
    subst hwhole hafter
    exact .stringLiteral (afterQuote?_append_of_eq (fun hc => h.head _ hc (by decide)) closed)
  | @quotedIdentifier body after closed =>
    subst hafter
    obtain rfl : front = body ++ back :=
      List.append_cancel_right (by rw [hwhole, List.append_assoc])
    rw [← List.append_assoc] at closed
    have closed' := afterQuote?_append_of_eq (fun hc => h.head _ hc (by decide)) closed
    rw [List.append_assoc] at closed' ⊢
    exact .quotedIdentifier closed'
  | lineComment next =>
    subst hwhole
    exact reads_lineComment_append (fun hrest => hline hrest rfl) next hafter.symm
  | blockComment next closed =>
    subst hwhole hafter
    cases front with
    | nil =>
      -- the comment would end before it begins
      have := length_lt_of_afterFirst? (by simp) closed
      simp only [List.nil_append, List.drop_one, List.length_append, List.length_tail] at this
      omega
    | cons c front => exact .blockComment next (afterFirst?_append_of_eq (by simp) closed)
  | parameter hword digit =>
    subst hwhole
    exact h.reads_parameter hword digit hafter.symm
  | dollarQuoted hword digit opened closed =>
    subst hwhole hafter
    exact reads_dollarQuoted_append hword digit opened closed
  | dollar hword digit unopened =>
    subst hwhole
    obtain rfl := List.append_cancel_right hafter
    exact h.reads_dollar hword digit unopened
  | number digit hword =>
    subst hwhole
    have hread : afterNumber ((first :: front) ++ rest) = back ++ rest := hafter.symm
    have hnumber : afterNumber ((first :: front) ++ rest') = back ++ rest' :=
      h.afterNumber_append hread
    rw [← hnumber]
    exact .number digit hword
  | digitsInWord digit hword hreplace =>
    subst hwhole
    rw [← dropWhile_append_of_eq hafter.symm fun _ => h.any_head? rfl]
    exact .digitsInWord digit hword hreplace
  | digitInWord digit hword hkeep =>
    obtain rfl := List.append_cancel_right (hafter.trans hwhole.symm)
    exact .digitInWord digit hword hkeep
  | blank hblank =>
    obtain rfl := List.append_cancel_right (hafter.trans hwhole.symm)
    exact .blank hblank
  | other hstring hidentifier hdash hslash hdollar digit hblank =>
    subst hwhole
    obtain rfl := List.append_cancel_right hafter
    exact .other hstring hidentifier
      (fun hc hhead => hdash hc (h.head?_append (by decide) hhead))
      (fun hc hhead => hslash hc (h.head?_append (by decide) hhead)) hdollar digit hblank

/-! ### The way of the scan -/

/-- The scan comes to a text as it comes to another one in its place that resembles it. -/
theorem Reaches.replace (h : Resembles rest rest')
    (hline : rest = [] ∨ rest.head? = some '\n' → ∀ written body,
      Reaches replaceDigits (front ++ rest) written ('-' :: '-' :: body ++ rest) → '\n' ∉ body →
        rest' = [] ∨ rest'.head? = some '\n')
    (hreach : Reaches replaceDigits (front ++ rest) written (back ++ rest)) :
    Reaches replaceDigits (front ++ rest') written (back ++ rest') := by
  generalize hwhole : back ++ rest = whole at hreach
  induction hreach generalizing back with
  | start =>
    obtain rfl := List.append_cancel_right hwhole
    exact .start
  | @step _ whole after first piece hprevious hread ih =>
    subst hwhole
    obtain ⟨more, rfl⟩ := suffix_of_lexeme (lexeme_of_reads hread)
    rw [← List.append_assoc] at hread hprevious ih
    refine .step (@ih (first :: (more ++ back)) rfl) (hread.replace h ?_)
    rintro hrest rfl hhead hbreak
    obtain ⟨body, hbody⟩ := List.head?_eq_some_iff.mp hhead
    rw [hbody] at hprevious hbreak
    exact hline hrest _ body hprevious fun hmem => hbreak (List.mem_cons_of_mem _ hmem)

/-- The scan comes to the end of a lexeme as if the statement ended there. -/
theorem Reaches.restrict (h : Reaches replaceDigits (front ++ rest) written (back ++ rest)) :
    Reaches replaceDigits front written back := by
  have hend : Reaches replaceDigits (front ++ []) written (back ++ []) :=
    Reaches.replace resembles_nil (fun _ _ _ _ _ => .inl rfl) h
  rwa [List.append_nil, List.append_nil] at hend

/-- A quote or a dollar. -/
def IsStop (d : Char) : Prop := d = '\'' ∨ d = '$'

/-- A text that begins with a quote or a dollar resembles every text that begins with it. -/
theorem resembles_stop {d : Char} {tail tail' : List Char} (hd : IsStop d) :
    Resembles (d :: tail) (d :: tail') := by
  refine ⟨fun c hc _ => hc, fun c hc => ?_, fun htag => ?_⟩
  · obtain rfl : d = c := Option.some.inj hc
    rcases hd with rfl | rfl <;> decide
  · have hnot : ¬ isTagChar d = true := by rcases hd with rfl | rfl <;> decide
    rw [List.dropWhile_cons_of_neg hnot] at htag ⊢
    exact htag

/-- The scan comes to a quote or a dollar whatever stands behind that character. -/
theorem Reaches.replace_rest {d : Char} {front back tail tail' written : List Char} (hd : IsStop d)
    (h : Reaches replaceDigits (front ++ d :: tail) written (back ++ d :: tail)) :
    Reaches replaceDigits (front ++ d :: tail') written (back ++ d :: tail') := by
  refine Reaches.replace (resembles_stop hd) (fun hend => ?_) h
  rcases hend with hnil | hbreak
  · cases hnil
  · obtain rfl : d = '\n' := Option.some.inj hbreak
    rcases hd with hd | hd <;> cases hd

end Redaction

end QueryTelemetry
