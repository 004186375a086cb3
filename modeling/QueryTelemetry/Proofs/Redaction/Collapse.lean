import QueryTelemetry.Proofs.Redaction.Settled

/-!
# Lists of question marks and blanks at the ends

Behind the scan, blanks at the ends are cut off and lists of question marks are written as one. What
remains has no blanks at its ends and no lists, and both steps leave such texts alone. They also
leave a settled text settled: they only take away characters at the end or between question marks,
and neither of them changes the first character or the run that would be a tag.
-/

namespace QueryTelemetry

namespace Redaction

variable {separator separator' text rest : List Char} {c : Char}

/-! ### Blanks at the ends -/

theorem trimEnd_eq_self (h : text.getLast?.any Text.isBlank = false) :
    Text.trimEnd text = text := by
  rw [Text.trimEnd, dropWhile_eq_self (by rwa [List.head?_reverse]), List.reverse_reverse]

/-- Only blanks are cut off. -/
theorem exists_eq_trimEnd_append (text : List Char) :
    ∃ blanks, (∀ c ∈ blanks, Text.isBlank c = true) ∧ text = Text.trimEnd text ++ blanks := by
  refine ⟨(text.reverse.takeWhile Text.isBlank).reverse, fun c hc => ?_, ?_⟩
  · exact List.all_eq_true.mp List.all_takeWhile c (List.mem_reverse.mp hc)
  · rw [Text.trimEnd, ← List.reverse_append, List.takeWhile_append_dropWhile, List.reverse_reverse]

/-- No blank remains at the end. -/
theorem any_getLast?_trimEnd (text : List Char) :
    (Text.trimEnd text).getLast?.any Text.isBlank = false := by
  rw [Text.trimEnd, List.getLast?_reverse, any_head?_dropWhile]

/-! ### Lists of question marks -/

/-- Two question marks with a separator between them. -/
def twoMarks (separator : List Char) : List Char := '?' :: (separator ++ ['?'])

/-- A character is kept, or it is a question mark that the list behind it is joined to. -/
theorem collapse_cons (separator rest : List Char) (c : Char) :
    (collapse separator (c :: rest) = c :: collapse separator rest ∧
      ¬ twoMarks separator <+: c :: collapse separator rest) ∨
    ∃ more, c = '?' ∧ collapse separator rest = separator ++ '?' :: more ∧
      collapse separator (c :: rest) = '?' :: more := by
  by_cases h : c = '?' ∧ (separator ++ ['?']).isPrefixOf (collapse separator rest) = true
  · obtain ⟨more, hmore⟩ := List.isPrefixOf_iff_prefix.mp h.2
    have hdone : collapse separator rest = separator ++ '?' :: more := by simp [← hmore]
    refine .inr ⟨more, h.1, hdone, ?_⟩
    rw [collapse, if_pos h, hdone, List.drop_left]
  · refine .inl ⟨by rw [collapse, if_neg h], fun hmarks => h ?_⟩
    rw [twoMarks, List.cons_prefix_cons] at hmarks
    exact ⟨hmarks.1.symm, List.isPrefixOf_iff_prefix.mpr hmarks.2⟩

theorem collapse_cons_of_ne (hc : c ≠ '?') :
    collapse separator (c :: rest) = c :: collapse separator rest := by
  rcases collapse_cons separator rest c with ⟨h, -⟩ | ⟨_, h, -⟩
  · exact h
  · exact absurd h hc

@[simp] theorem head?_collapse (separator text : List Char) :
    (collapse separator text).head? = text.head? := by
  cases text with
  | nil => rfl
  | cons c rest =>
    rcases collapse_cons separator rest c with ⟨h, -⟩ | ⟨more, rfl, -, h⟩ <;> rw [h] <;> rfl

@[simp] theorem getLast?_collapse (separator text : List Char) :
    (collapse separator text).getLast? = text.getLast? := by
  induction text with
  | nil => rfl
  | cons c rest ih =>
    rcases collapse_cons separator rest c with ⟨h, -⟩ | ⟨more, rfl, hdone, h⟩
    · rw [h, List.getLast?_cons, List.getLast?_cons, ih]
    · rw [hdone, List.getLast?_append, List.getLast?_cons, Option.some_or] at ih
      rw [h, List.getLast?_cons, List.getLast?_cons, ← ih, Option.getD_some]

/-- The run that would be the tag of a dollar ends in front of the same character. -/
theorem head?_dropWhile_collapse {f : Char → Bool} (hf : f '?' = false)
    (separator text : List Char) :
    ((collapse separator text).dropWhile f).head? = (text.dropWhile f).head? := by
  induction text with
  | nil => rfl
  | cons c rest ih =>
    by_cases hc : f c = true
    · have hmark : c ≠ '?' := by
        rintro rfl
        rw [hf] at hc
        exact Bool.noConfusion hc
      rw [collapse_cons_of_ne hmark, List.dropWhile_cons_of_pos hc, List.dropWhile_cons_of_pos hc,
        ih]
    · have hhead : (collapse separator (c :: rest)).head?.any f = false := by simpa using hc
      rw [dropWhile_eq_self hhead, head?_collapse, List.dropWhile_cons_of_neg hc]

/-- No list is left. -/
theorem not_infix_collapse (separator text : List Char) :
    ¬ twoMarks separator <:+: collapse separator text := by
  induction text with
  | nil => simp [collapse, twoMarks]
  | cons c rest ih =>
    rcases collapse_cons separator rest c with ⟨h, hfront⟩ | ⟨more, rfl, hdone, h⟩
    · rw [h, List.infix_cons_iff, not_or]
      exact ⟨hfront, ih⟩
    · rw [h]
      rw [hdone] at ih
      exact fun hmarks => ih (hmarks.trans (List.suffix_append _ _).isInfix)

/-- A text without lists is left alone. -/
theorem collapse_eq_self (h : ¬ twoMarks separator <:+: text) : collapse separator text = text := by
  induction text with
  | nil => rfl
  | cons c rest ih =>
    rw [List.infix_cons_iff, not_or] at h
    have hrest := ih h.2
    rcases collapse_cons separator rest c with ⟨hkept, -⟩ | ⟨more, rfl, hdone, -⟩
    · rw [hkept, hrest]
    · refine absurd ⟨more, ?_⟩ h.1
      rw [← hrest, hdone]
      simp [twoMarks]

/-- What stands at the front up to the first question mark stood there before. -/
private theorem prefix_of_prefix_collapse {front : List Char} (hfront : '?' ∉ front)
    (h : front ++ ['?'] <+: collapse separator text) : front ++ ['?'] <+: text := by
  induction front generalizing text with
  | nil =>
    obtain ⟨more, hmore⟩ := h
    have hhead : text.head? = some '?' := by rw [← head?_collapse separator, ← hmore]; rfl
    obtain ⟨rest, rfl⟩ := List.head?_eq_some_iff.mp hhead
    exact ⟨rest, rfl⟩
  | cons d front ih =>
    obtain ⟨hd, hfront⟩ : d ≠ '?' ∧ '?' ∉ front := by simpa [eq_comm, not_or] using hfront
    have hhead : text.head? = some d := by
      obtain ⟨more, hmore⟩ := h
      rw [← head?_collapse separator, ← hmore]
      rfl
    obtain ⟨rest, rfl⟩ := List.head?_eq_some_iff.mp hhead
    rw [collapse_cons_of_ne hd, List.cons_append, List.cons_prefix_cons] at h
    rw [List.cons_append, List.cons_prefix_cons]
    exact ⟨rfl, ih hfront h.2⟩

/-- Joining lists with one separator makes no lists with another one. -/
theorem not_infix_collapse_of_not_infix (hseparator : '?' ∉ separator')
    (h : ¬ twoMarks separator' <:+: text) :
    ¬ twoMarks separator' <:+: collapse separator text := by
  induction text with
  | nil => exact h
  | cons c rest ih =>
    rw [List.infix_cons_iff, not_or] at h
    have hrest := ih h.2
    rcases collapse_cons separator rest c with ⟨hkept, -⟩ | ⟨more, rfl, hdone, hjoined⟩
    · rw [hkept, List.infix_cons_iff, not_or]
      refine ⟨fun hmarks => h.1 ?_, hrest⟩
      rw [twoMarks, List.cons_prefix_cons] at hmarks ⊢
      exact ⟨hmarks.1, prefix_of_prefix_collapse hseparator hmarks.2⟩
    · rw [hjoined]
      rw [hdone] at hrest
      exact fun hmarks => hrest (hmarks.trans (List.suffix_append _ _).isInfix)

/-! ### What stays where lists are joined -/

/-- Quotes stay. -/
theorem count_quote_collapse (hseparator : '"' ∉ separator) (text : List Char) :
    (collapse separator text).count '"' = text.count '"' := by
  induction text with
  | nil => rfl
  | cons c rest ih =>
    rcases collapse_cons separator rest c with ⟨hkept, -⟩ | ⟨more, rfl, hdone, hjoined⟩
    · rw [hkept, List.count_cons, List.count_cons, ih]
    · rw [hdone, List.count_append, List.count_eq_zero_of_not_mem hseparator, Nat.zero_add] at ih
      rw [hjoined, ih, List.count_cons_of_ne (by decide)]

/-- A character that is no question mark was there before, and the text in front of it has become
what stands in front of it now. -/
theorem exists_eq_of_collapse_eq {d : Char} {front back : List Char} (hd : d ≠ '?')
    (h : collapse separator text = front ++ d :: back) :
    ∃ front' back', text = front' ++ d :: back' ∧ collapse separator front' = front := by
  induction text generalizing front with
  | nil => cases front <;> cases h
  | cons c rest ih =>
    rcases collapse_cons separator rest c with ⟨hkept, hfree⟩ | ⟨more, rfl, hdone, hjoined⟩
    · rw [hkept] at h
      cases front with
      | nil =>
        obtain ⟨rfl, -⟩ := List.cons.inj h
        exact ⟨[], rest, rfl, rfl⟩
      | cons c' front =>
        obtain ⟨rfl, hrest⟩ := List.cons.inj h
        obtain ⟨front', back', rfl, hfront⟩ := ih hrest
        refine ⟨c :: front', back', rfl, ?_⟩
        rcases collapse_cons separator front' c with ⟨hkept', -⟩ | ⟨more, rfl, hdone', -⟩
        · rw [hkept', hfront]
        · -- the list would have been joined in front of `d` as well
          refine absurd ?_ hfree
          rw [hrest, ← hfront, hdone']
          exact ⟨more ++ d :: back, by simp [twoMarks]⟩
    · rw [hjoined] at h
      cases front with
      | nil => exact absurd (List.cons.inj h).1.symm hd
      | cons c front =>
        obtain ⟨rfl, rfl⟩ := List.cons.inj h
        obtain ⟨front', back', rfl, hfront⟩ := @ih (separator ++ '?' :: front) (by simp [hdone])
        refine ⟨'?' :: front', back', rfl, ?_⟩
        rcases collapse_cons separator front' '?' with ⟨-, hfree⟩ | ⟨more, -, hdone', hjoined'⟩
        · rw [hfront] at hfree
          exact absurd ⟨front, by simp [twoMarks]⟩ hfree
        · rw [hfront] at hdone'
          rw [hjoined', (List.cons.inj (List.append_cancel_left hdone')).2]

/-- A prefix without the character `d` ends in front of it. -/
private theorem prefix_of_prefix_append_cons {list front back : List Char} {d : Char}
    (hd : d ∉ list) (h : list <+: front ++ d :: back) : list <+: front := by
  obtain ⟨more, hmore⟩ := h
  rcases List.append_eq_append_iff.mp hmore with ⟨middle, rfl, -⟩ | ⟨middle, rfl, hmiddle⟩
  · exact List.prefix_append list middle
  · cases middle with
    | nil => simp
    | cons c middle =>
      obtain ⟨rfl, -⟩ := List.cons.inj hmiddle
      exact absurd (by simp) hd

/-- Lists are joined on each side of a character that belongs to none as if the text ended there. -/
theorem collapse_append_cons {d : Char} {back : List Char} (hd : d ∉ separator ++ ['?'])
    (front : List Char) :
    collapse separator (front ++ d :: back) =
      collapse separator front ++ d :: collapse separator back := by
  induction front with
  | nil => exact collapse_cons_of_ne fun h => hd (by simp [h])
  | cons c front ih =>
    rw [List.cons_append]
    rcases collapse_cons separator (front ++ d :: back) c with
      ⟨hkept, hfree⟩ | ⟨tail, rfl, hdone, hjoined⟩
    · rw [ih] at hkept hfree
      rcases collapse_cons separator front c with ⟨hkept', -⟩ | ⟨tail', rfl, hdone', -⟩
      · rw [hkept, hkept', List.cons_append]
      · rw [hdone'] at hfree
        exact absurd ⟨tail' ++ d :: collapse separator back, by simp [twoMarks]⟩ hfree
    · rw [ih] at hdone
      have hlist : separator ++ ['?'] <+: collapse separator front := by
        have hfull :
            separator ++ ['?'] <+: collapse separator front ++ d :: collapse separator back :=
          ⟨tail, by simp [hdone]⟩
        exact prefix_of_prefix_append_cons hd hfull
      rcases collapse_cons separator front '?' with ⟨-, hfree⟩ | ⟨tail', -, hdone', hjoined'⟩
      · exact absurd (List.cons_prefix_cons.mpr ⟨rfl, hlist⟩) hfree
      · rw [hdone', List.append_assoc] at hdone
        obtain rfl : tail' ++ d :: collapse separator back = tail :=
          (List.cons.inj (List.append_cancel_left hdone)).2
        rw [hjoined, hjoined', List.cons_append]

/-! ### Settled texts stay settled -/

variable {replaceDigits quoted : Bool} {p : Place}

/-- The place behind a text stays. -/
theorem Place.after_collapse (p : Place) (separator text : List Char) :
    p.after (collapse separator text) = p.after text := by
  induction text generalizing p with
  | nil => rfl
  | cons c rest ih =>
    rcases collapse_cons separator rest c with ⟨hkept, -⟩ | ⟨more, rfl, hdone, hjoined⟩
    · rw [hkept, Place.after_cons, Place.after_cons, ih]
    · have hmark : ∀ p : Place, p.next '?' = ⟨some '?', false⟩ :=
        fun p => Place.next_of_isDigit_eq_false (by decide) rfl
      have hlist : separator ++ '?' :: more = (separator ++ ['?']) ++ more := by simp
      rw [hjoined, Place.after_cons, Place.after_cons, ← ih, hdone, hlist, Place.after_append,
        Place.after_concat, hmark, hmark]

theorem Settled.collapse (hseparator : '"' ∉ separator)
    (h : Settled replaceDigits quoted p text) :
    Settled replaceDigits quoted p (collapse separator text) := by
  induction text generalizing p quoted with
  | nil => exact h
  | cons c rest ih =>
    by_cases hc : c = '"'
    · subst hc
      rw [settled_quote] at h
      rw [collapse_cons_of_ne (by decide), settled_quote]
      exact ih h
    · rw [settled_cons hc] at h
      rcases collapse_cons separator rest c with ⟨hkept, -⟩ | ⟨more, rfl, hdone, hjoined⟩
      · rw [hkept, settled_cons hc]
        refine ⟨fun hquoted => (h.1 hquoted).replace_rest (.inr (head?_collapse _ _)) ?_, ih h.2⟩
        rw [head?_dropWhile_collapse rfl]
        exact id
      · rw [hjoined, settled_cons hc]
        refine ⟨fun _ => stands_placeholder, ?_⟩
        -- behind the mark that ends the list the place is the same as behind the first one
        have hlist : Settled replaceDigits quoted (p.next '?') ((separator ++ ['?']) ++ more) := by
          simpa [hdone] using ih h.2
        have hmore := hlist.drop (by simpa using hseparator)
        rw [Place.after_concat, Place.next_of_isDigit_eq_false (by decide) rfl] at hmore
        rwa [Place.next_of_isDigit_eq_false (by decide) rfl]

/-- A settled text does not begin with a blank. -/
theorem Settled.any_head? (h : Settled replaceDigits false Place.start text) :
    text.head?.any Text.isBlank = false := by
  cases text with
  | nil => rfl
  | cons c rest =>
    rw [List.head?_cons, Option.any_some, ← Bool.not_eq_true]
    intro hblank
    have hstands := ((settled_cons (ne_of_isBlank hblank (by decide))).mp h).1 rfl
    exact Bool.noConfusion (hstands.place_of_blank hblank).2

/-- Cutting off the blanks of a settled text leaves it settled. -/
theorem Settled.trim (h : Settled replaceDigits false Place.start text) :
    Settled replaceDigits false Place.start (Text.trim text) := by
  rw [Text.trim, dropWhile_eq_self h.any_head?]
  obtain ⟨blanks, hblanks, htext⟩ := exists_eq_trimEnd_append text
  rw [htext] at h
  refine h.of_append fun hquote => ?_
  have : Text.isBlank '"' = true := hblanks _ hquote
  revert this
  decide

end Redaction

end QueryTelemetry
