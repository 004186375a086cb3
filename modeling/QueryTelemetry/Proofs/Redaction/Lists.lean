import QueryTelemetry.Proofs.Redaction.Comments
import QueryTelemetry.Proofs.Redaction.Idempotence
import QueryTelemetry.Proofs.Redaction.Literal
import QueryTelemetry.Proofs.Redaction.Marks

/-!
# Lists of values leave no trace

For a list of literals question marks with commas between them are written, one for each element.
What the scan writes behind a question mark does not depend on what stands before it, and the marks
become a single one. So a list of values may be put in the place of another one, whatever the values
are and however many (`redact_replace_list`).
-/

namespace QueryTelemetry

namespace Redaction

/-! ### Lists of literals -/

/-- What a number begins with: digits, and maybe a point with digits behind it. -/
inductive IsMantissa : List Char → Prop
  | whole {digits : List Char} : IsDigits digits → IsMantissa digits
  | fraction {whole fraction : List Char} :
      IsDigits whole → IsDigits fraction → IsMantissa (whole ++ '.' :: fraction)

/-- What a number may end with: a mark, maybe a sign, and digits. -/
inductive IsExponent : List Char → Prop
  | none : IsExponent []
  | unsigned {mark : Char} {digits : List Char} :
      mark = 'e' ∨ mark = 'E' → IsDigits digits → IsExponent (mark :: digits)
  | signed {mark sign : Char} {digits : List Char} :
      mark = 'e' ∨ mark = 'E' → sign = '+' ∨ sign = '-' → IsDigits digits →
      IsExponent (mark :: sign :: digits)

/-- An element of a list: a standard string or a number. -/
inductive IsItem : List Char → Prop
  | string (body : List Char) : IsItem ('\'' :: doubleQuotes body ++ ['\''])
  | number {mantissa exponent : List Char} :
      IsMantissa mantissa → IsExponent exponent → IsItem (mantissa ++ exponent)

/-- Elements with commas between them. Each comma comes right behind an element, and blanks may come
behind it. -/
inductive IsList : List Char → Prop
  | single {item : List Char} : IsItem item → IsList item
  | cons {item gap list : List Char} :
      IsItem item → (∀ c ∈ gap, Text.isBlank c = true) → IsList list →
      IsList (item ++ ',' :: (gap ++ list))

/-- Whether a literal would go on with a character. -/
def goesOn (c : Char) : Bool := isWordChar c || c == '.' || c == '\''

variable {item list text written rest : List Char} {replaceDigits : Bool}

theorem goesOn_of_isDigit (c : Char) (digit : c.isDigit = true) : goesOn c = true := by
  simp [goesOn, isWordChar_of_isDigit digit]

/-! ### Numbers -/

theorem isDigitOrPoint_of_isDigit (c : Char) (h : c.isDigit = true) : isDigitOrPoint c = true := by
  simp [isDigitOrPoint, h]

/-- A mantissa ends in front of a text that goes on neither with a digit nor with a point. -/
theorem IsMantissa.dropWhile {mantissa : List Char} (h : IsMantissa mantissa)
    (hrest : rest.head?.any isDigitOrPoint = false) :
    (mantissa ++ rest).dropWhile isDigitOrPoint = rest := by
  cases h with
  | whole hdigits =>
    have hall : ∀ c ∈ mantissa, isDigitOrPoint c = true :=
      fun c hc => isDigitOrPoint_of_isDigit c (hdigits.2 c hc)
    exact dropWhile_append_of_forall hall hrest
  | @fraction whole fraction hwhole hfraction =>
    have hall : ∀ c ∈ whole ++ '.' :: fraction, isDigitOrPoint c = true := by
      intro c hc
      rcases List.mem_append.mp hc with hc | hc
      · exact isDigitOrPoint_of_isDigit c (hwhole.2 c hc)
      · rcases List.mem_cons.mp hc with rfl | hc
        · rfl
        · exact isDigitOrPoint_of_isDigit c (hfraction.2 c hc)
    exact dropWhile_append_of_forall hall hrest

/-- A number ends behind its exponent. -/
theorem IsExponent.afterExponent {exponent : List Char} (h : IsExponent exponent)
    (hrest : rest.head?.any goesOn = false) : afterExponent (exponent ++ rest) = rest := by
  have hstop : rest.head?.any Char.isDigit = false := any_head?_of_imp goesOn_of_isDigit hrest
  cases h with
  | none =>
    cases rest with
    | nil => rfl
    | cons c rest =>
      have hc : ¬ (c = 'e' ∨ c = 'E') := by
        rintro (rfl | rfl) <;> cases hrest
      exact if_neg fun hmark => hc hmark.1
  | @unsigned mark digits hmark hdigits =>
    have hsign : afterSign (digits ++ rest) = digits ++ rest := by
      obtain ⟨hne, hall⟩ := hdigits
      cases digits with
      | nil => exact absurd rfl hne
      | cons d digits =>
        have digit := hall d List.mem_cons_self
        have hd : ¬ (d = '+' ∨ d = '-') := by
          rintro (rfl | rfl) <;> cases digit
        exact if_neg hd
    rw [List.cons_append, Redaction.afterExponent, hsign,
      if_pos ⟨hmark, hdigits.any_head?_append rest⟩]
    exact dropWhile_append_of_forall hdigits.2 hstop
  | @signed mark sign digits hmark hsign hdigits =>
    have hafter : afterSign (sign :: (digits ++ rest)) = digits ++ rest := if_pos hsign
    rw [List.cons_append, List.cons_append, Redaction.afterExponent, hafter,
      if_pos ⟨hmark, hdigits.any_head?_append rest⟩]
    exact dropWhile_append_of_forall hdigits.2 hstop

theorem afterNumber_append_of_number {mantissa exponent : List Char} (h : IsMantissa mantissa)
    (h' : IsExponent exponent) (hrest : rest.head?.any goesOn = false) :
    afterNumber (mantissa ++ exponent ++ rest) = rest := by
  have hexponent : (exponent ++ rest).head?.any isDigitOrPoint = false := by
    cases h' with
    | none =>
      refine any_head?_of_imp (fun c hc => ?_) hrest
      rcases Bool.or_eq_true_iff.mp hc with digit | hpoint
      · exact goesOn_of_isDigit c digit
      · simp [goesOn, hpoint]
    | unsigned hmark | signed hmark =>
      rcases hmark with rfl | rfl <;> rfl
  rw [afterNumber, List.append_assoc, h.dropWhile hexponent, h'.afterExponent hrest]

/-! ### Reading a list -/

theorem IsMantissa.exists_eq_cons {mantissa : List Char} (h : IsMantissa mantissa) :
    ∃ c more, mantissa = c :: more ∧ c.isDigit = true := by
  have hhead : mantissa.head?.any Char.isDigit = true := by
    cases h with
    | whole hdigits => simpa using hdigits.any_head?_append []
    | fraction hdigits _ => exact hdigits.any_head?_append _
  cases mantissa with
  | nil => cases hhead
  | cons c more => exact ⟨c, more, rfl, hhead⟩

/-- An element begins with a quote or a digit. -/
theorem IsItem.exists_eq_cons (h : IsItem item) :
    ∃ c more, item = c :: more ∧ (c = '\'' ∨ c.isDigit = true) := by
  cases h with
  | string body => exact ⟨'\'', _, rfl, .inl rfl⟩
  | number hmantissa _ =>
    obtain ⟨c, more, rfl, digit⟩ := hmantissa.exists_eq_cons
    exact ⟨c, _, rfl, .inr digit⟩

/-- For an element a question mark is written. -/
theorem IsItem.reaches (h : IsItem item) (hword : (Before.ofReversed written).inWord = false)
    (hrest : rest.head?.any goesOn = false)
    (hreach : Reaches replaceDigits text written (item ++ rest)) :
    Reaches replaceDigits text ('?' :: written) rest := by
  cases h with
  | string body =>
    have hmark : Quotation.standardString.CanFollow written := by
      cases written with
      | nil => rfl
      | cons c written =>
        have hc : ¬ (c = 'E' ∨ c = 'e') := by
          rintro (rfl | rfl) <;> cases hword
        rw [not_or] at hc
        simp [Quotation.CanFollow, Before.ofReversed, hc]
    have hquote : Quotation.standardString.CanPrecede rest := by
      intro hquote
      rw [hquote] at hrest
      cases hrest
    obtain ⟨more, hmore, hread⟩ :=
      (IsLiteral.standardString body).reads replaceDigits hmark hquote
    rw [hmore] at hreach
    exact hreach.step hread
  | @number mantissa exponent hmantissa hexponent =>
    have hnumber := afterNumber_append_of_number hmantissa hexponent hrest
    obtain ⟨first, more, rfl, digit⟩ := hmantissa.exists_eq_cons
    rw [List.cons_append, List.cons_append] at hreach hnumber
    have hnext := hreach.step (.number digit hword)
    rwa [hnumber] at hnext

theorem IsList.exists_eq_cons (h : IsList list) :
    ∃ c more, list = c :: more ∧ (c = '\'' ∨ c.isDigit = true) := by
  cases h with
  | single hitem => exact hitem.exists_eq_cons
  | cons hitem _ _ =>
    obtain ⟨c, more, rfl, hc⟩ := hitem.exists_eq_cons
    exact ⟨c, _, rfl, hc⟩

/-- For a list question marks are written, one for each element. -/
theorem IsList.reaches (h : IsList list) (hword : (Before.ofReversed written).inWord = false)
    (hrest : rest.head?.any goesOn = false)
    (hreach : Reaches replaceDigits text written (list ++ rest)) :
    ∃ marks, IsMarks marks ∧ Reaches replaceDigits text (marks.reverse ++ written) rest := by
  induction h generalizing written with
  | single hitem => exact ⟨['?'], .one, hitem.reaches hword hrest hreach⟩
  | @cons item gap list hitem hgap _ ih =>
    rw [List.append_assoc, List.cons_append, List.append_assoc] at hreach
    have hcomma := hitem.reaches hword rfl hreach
    have hbehind : Reaches replaceDigits text (',' :: '?' :: written) (gap ++ (list ++ rest)) :=
      hcomma.step (.other (by decide) (by decide) (by simp) (by simp) (by simp) rfl rfl)
    cases gap with
    | nil =>
      obtain ⟨marks, hmarks, hend⟩ := ih rfl hbehind
      refine ⟨'?' :: ',' :: marks, .comma hmarks, ?_⟩
      simpa using hend
    | cons c gap =>
      have hspace := hbehind.of_blanks (List.cons_ne_nil c gap) hgap
      obtain ⟨marks, hmarks, hend⟩ := ih rfl hspace
      refine ⟨'?' :: ',' :: ' ' :: marks, .spacedComma hmarks, ?_⟩
      simpa [Piece.appendTo] using hend

/-! ### What stands before a question mark -/

/-- What the scan writes from some place on does not depend on what stands before the last question
mark that has been written. -/
theorem exists_scan_append_mark (replaceDigits : Bool) (total : Nat) (front rest : List Char) :
    ∃ result : Except Unterminated (List Char), ∀ written,
      scan replaceDigits total (front ++ '?' :: written) rest =
        result.map (· ++ '?' :: written) := by
  induction hn : rest.length using Nat.strongRecOn generalizing front rest with
  | _ n ih =>
    subst hn
    cases rest with
    | nil => exact ⟨.ok front, fun _ => scan_nil⟩
    | cons first rest =>
      have hbefore : ∀ written, Before.ofReversed (front ++ '?' :: written) =
          Before.ofReversed (front ++ ['?']) :=
        fun _ => Before.ofReversed_append_cons (by decide) (by decide) []
      cases hlex : lexeme replaceDigits (Before.ofReversed (front ++ ['?'])) first rest with
      | error kind =>
        refine ⟨.error ⟨kind, total - (rest.length + 1)⟩, fun written => ?_⟩
        rw [← hbefore written] at hlex
        exact scan_cons_of_error hlex
      | ok found =>
        obtain ⟨piece, after⟩ := found
        have hread := reads_of_lexeme hlex
        have hshorter := (suffix_of_lexeme hlex).length_le
        obtain ⟨front', hfront'⟩ := hread.exists_appendTo (by decide) (by decide)
        obtain ⟨result, hresult⟩ := ih after.length (Nat.lt_succ_of_le hshorter) front' after rfl
        refine ⟨result, fun written => ?_⟩
        rw [← hbefore written] at hread
        rw [scan_cons_of_reads hread, hfront', hresult]

/-- It makes no difference how many question marks there are, wherever they stand. -/
theorem strip_eq_of_marks {text' marks marks' : List Char} (h : IsMarks marks) (h' : IsMarks marks')
    (hreach : Reaches replaceDigits text (marks.reverse ++ written) rest)
    (hreach' : Reaches replaceDigits text' (marks'.reverse ++ written) rest) :
    (strip replaceDigits text).mapError (Unterminated.fromEnd text.length) =
      (strip replaceDigits text').mapError (Unterminated.fromEnd text'.length) := by
  obtain ⟨result, hresult⟩ := exists_scan_append_mark replaceDigits rest.length [] rest
  have outcome : ∀ {marks : List Char}, IsMarks marks →
      scan replaceDigits rest.length (marks.reverse ++ written) rest =
        result.map (· ++ (marks.reverse ++ written)) := by
    intro marks hmarks
    obtain ⟨more, rfl⟩ := hmarks.exists_eq_concat
    simpa using hresult (more.reverse ++ written)
  rw [mapError_fromEnd_strip_eq hreach (Nat.le_refl _),
    mapError_fromEnd_strip_eq hreach' (Nat.le_refl _), outcome h, outcome h']
  cases result with
  | error u => rfl
  | ok behind =>
    refine congrArg Except.ok ?_
    have hjoined := joined_trim_marks h h' written.reverse behind.reverse
    simpa [joined] using hjoined

/-! ### Lists in a statement -/

/-- A list looks the same to what stands before it, whatever follows. -/
theorem IsList.resembles (h : IsList list) (hrest : rest.head?.any goesOn = false) :
    Resembles list (list ++ rest) := by
  obtain ⟨c, more, rfl, hc⟩ := h.exists_eq_cons
  refine ⟨fun d hd _ => hd, fun d hd => ?_, fun htag => ?_⟩
  · obtain rfl : c = d := Option.some.inj hd
    rcases hc with rfl | digit
    · decide
    · have hother : ∀ mark : Char, mark.isDigit = false → c ≠ mark := fun _ => ne_of_isDigit digit
      exact ⟨not_or.mpr ⟨hother 'e' rfl, hother 'E' rfl⟩,
        not_or.mpr ⟨hother '+' rfl, hother '-' rfl⟩⟩
  · rw [List.dropWhile_append] at htag
    split at htag
    · -- the list is part of the tag, which has to end where the list ends
      cases rest with
      | nil => cases htag
      | cons d rest =>
        have hd : goesOn d = false := hrest
        have hword : isTagChar d = false := by
          rw [← Bool.not_eq_true]
          intro htagChar
          simp [goesOn, isWordChar_of_isTagChar htagChar] at hd
        rw [List.dropWhile_cons_of_neg (by simp [hword]), List.head?_cons,
          Option.some.injEq] at htag
        rw [htag] at hd
        cases hd
    · rename_i hsomething
      cases hmore : (c :: more).dropWhile isTagChar with
      | nil => exact absurd (by rw [hmore]; rfl) hsomething
      | cons d tail =>
        rw [hmore] at htag
        exact htag

/-- The scan of a text that ends in a list comes to the list, outside of words. -/
def ComesTo (replaceDigits : Bool) (before list : List Char) : Prop :=
  ∃ written, Reaches replaceDigits (before ++ list) written list ∧
    (Before.ofReversed written).inWord = false

/-- What the scan has written when it comes to a list is what it writes for the text before. -/
theorem Reaches.scan_before {before : List Char} {total : Nat}
    (h : Reaches replaceDigits (before ++ list) written list) :
    scan replaceDigits total [] before = .ok written := by
  have hbefore : Reaches replaceDigits (before ++ list) written ([] ++ list) := h
  rw [hbefore.restrict.scan_eq, scan_nil]

/-- The scan comes to a list, and goes on behind it with question marks. -/
theorem IsList.exists_reaches {before after : List Char} (h : IsList list)
    (hafter : after.head?.any goesOn = false)
    (hreach : Reaches replaceDigits (before ++ list) written list)
    (hword : (Before.ofReversed written).inWord = false) :
    ∃ marks, IsMarks marks ∧
      Reaches replaceDigits (before ++ list ++ after) (marks.reverse ++ written) after := by
  have hbefore : Reaches replaceDigits (before ++ list) written ([] ++ list) := hreach
  have hlist :
      Reaches replaceDigits (before ++ (list ++ after)) written ([] ++ (list ++ after)) := by
    refine Reaches.replace (h.resembles hafter) (fun hend => ?_) hbefore
    -- a list begins neither with the end of the statement nor with that of a line
    obtain ⟨c, more, rfl, hc⟩ := h.exists_eq_cons
    rcases hend with hend | hend
    · cases hend
    · obtain rfl : c = '\n' := Option.some.inj hend
      rcases hc with hc | hc <;> cases hc
  rw [← List.append_assoc] at hlist
  exact h.reaches hword hafter hlist

/-- A list of literals may be put in the place of another one: the outcome is the same redacted
statement, or the same failure equally far from the end. In no redacted statement there are lists of
question marks, and the passes that join them come to an end. -/
theorem redact_replace_list (document before after list list' : String) (h : IsList list.toList)
    (h' : IsList list'.toList) (hafter : after.toList.head?.any goesOn = false)
    (hcomes : ∀ options, Options.parse? document = some options →
      ComesTo options.replaceDigits before.toList list.toList ∧
        ComesTo options.replaceDigits before.toList list'.toList) :
    (redact document (before ++ list ++ after)).mapError
        (Failure.fromEnd (before ++ list ++ after).length) =
      (redact document (before ++ list' ++ after)).mapError
        (Failure.fromEnd (before ++ list' ++ after).length) ∧
    (∀ statement redacted, redact document statement = .ok redacted →
      ¬ twoMarks [',', ' '] <:+: redacted.text.toList ∧
        ¬ twoMarks [','] <:+: redacted.text.toList) ∧
    ∀ (replaceDigits : Bool) (statement written : List Char),
      scan replaceDigits statement.length [] statement = .ok written →
        ∃ first second, JoinsTo [',', ' '] (Text.trim written.reverse) first ∧
          JoinsTo [','] first second ∧ strip replaceDigits statement = .ok second := by
  refine ⟨mapError_fromEnd_redact_of_strip fun options hoptions => ?_, ?_, ?_⟩
  · obtain ⟨⟨written, hreach, hword⟩, written', hreach', hword'⟩ := hcomes options hoptions
    -- the text before the list is the same, and so is what is written for it
    have hwritten : scan options.replaceDigits 0 [] before.toList = .ok written :=
      hreach.scan_before
    obtain rfl : written = written' := Except.ok.inj (hwritten.symm.trans hreach'.scan_before)
    obtain ⟨marks, hmarks, hend⟩ := h.exists_reaches hafter hreach hword
    obtain ⟨marks', hmarks', hend'⟩ := h'.exists_reaches hafter hreach' hword
    have strips := strip_eq_of_marks hmarks hmarks' hend hend'
    simpa only [String.toList_append, String.length_toList, ← String.toList_append] using strips
  · intro statement redacted hredact
    unfold redact at hredact
    split at hredact
    · cases hredact
    · have hstripped := isStripped_of_strip (exists_strip_of_redactWith hredact).1
      exact ⟨hstripped.no_spacedList, hstripped.no_list⟩
  · intro replaceDigits statement written hscan
    refine ⟨_, _, joinsTo_collapse (by decide) _, joinsTo_collapse (by decide) _, ?_⟩
    rw [strip, hscan]
    rfl

/-- The lists `1, 2.5e-3,'it''s'` and `'x'` leave the same of a statement. -/
theorem redact_replace_list_of_values :
    (redact "" ("id IN (" ++ "1, 2.5e-3,'it''s'" ++ ")")).mapError (Failure.fromEnd 25) =
      (redact "" ("id IN (" ++ "'x'" ++ ")")).mapError (Failure.fromEnd 11) := by
  have hstring : IsItem "'it''s'".toList := .string ['i', 't', '\'', 's']
  have hdigits : ∀ d : Char, d.isDigit = true → IsDigits [d] := by
    intro d digit
    exact ⟨List.cons_ne_nil _ _, by simpa using digit⟩
  have hone : IsItem ['1'] := .number (.whole (hdigits '1' rfl)) .none
  have hfraction : IsItem "2.5e-3".toList :=
    .number (.fraction (hdigits '2' rfl) (hdigits '5' rfl)) (.signed (.inl rfl) (.inr rfl)
      (hdigits '3' rfl))
  have hgap : ∀ c ∈ [' '], Text.isBlank c = true := by
    intro c hc
    rw [List.mem_singleton.mp hc]
    rfl
  have hlist : IsList "1, 2.5e-3,'it''s'".toList :=
    .cons hone hgap (.cons hfraction (List.forall_mem_nil _) (.single hstring))
  have hlist' : IsList "'x'".toList := .single (.string ['x'])
  refine (redact_replace_list "" "id IN (" ")" "1, 2.5e-3,'it''s'" "'x'" hlist hlist' rfl
    fun options hoptions => ?_).1
  obtain rfl : Options.default = options := Option.some.inj hoptions
  exact ⟨⟨"( NI di".toList, reaches_iff_exists_place?.mpr ⟨7, by decide⟩, rfl⟩,
    ⟨"( NI di".toList, reaches_iff_exists_place?.mpr ⟨7, by decide⟩, rfl⟩⟩

end Redaction

end QueryTelemetry
