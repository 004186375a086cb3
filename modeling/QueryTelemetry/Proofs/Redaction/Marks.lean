import QueryTelemetry.Proofs.Redaction.Collapse

/-!
# Lists of question marks

Lists are joined from the right in one go (`collapse`). That is the same as joining neighbours from
left to right, pass by pass, until no two are left: such passes come to an end, and their outcome is
that of `collapse` (`joinsTo_collapse`).

A list may have two kinds of separators, which are joined one after the other. Nevertheless it
becomes a single question mark, whatever surrounds it (`joined_marks`).
-/

namespace QueryTelemetry

namespace Redaction

variable {separator text rest rest' : List Char} {c : Char}

/-! ### Joining in a part of a text -/

theorem collapse_append_congr (front : List Char)
    (h : collapse separator rest = collapse separator rest') :
    collapse separator (front ++ rest) = collapse separator (front ++ rest') := by
  induction front with
  | nil => exact h
  | cons c front ih => rw [List.cons_append, List.cons_append, collapse, collapse, ih]

theorem collapse_append_of_not_mem {front : List Char} (hfront : '?' ∉ front) :
    collapse separator (front ++ rest) = front ++ collapse separator rest := by
  induction front with
  | nil => rfl
  | cons c front ih =>
    obtain ⟨hc, hfront⟩ : c ≠ '?' ∧ '?' ∉ front := by simpa [eq_comm, not_or] using hfront
    rw [List.cons_append, collapse_cons_of_ne hc, ih hfront, List.cons_append]

theorem exists_collapse_mark (separator rest : List Char) :
    ∃ more, collapse separator ('?' :: rest) = '?' :: more :=
  List.head?_eq_some_iff.mp (by rw [head?_collapse]; rfl)

/-- Two question marks are joined wherever they stand. -/
theorem collapse_twoMarks (hseparator : '?' ∉ separator) (rest : List Char) :
    collapse separator ('?' :: (separator ++ '?' :: rest)) = collapse separator ('?' :: rest) := by
  obtain ⟨more, hmore⟩ := exists_collapse_mark separator rest
  have hlist : collapse separator (separator ++ '?' :: rest) = separator ++ '?' :: more := by
    rw [collapse_append_of_not_mem hseparator, hmore]
  rcases collapse_cons separator (separator ++ '?' :: rest) '?' with
    ⟨-, hfree⟩ | ⟨more', -, hdone, hjoined⟩
  · rw [hlist] at hfree
    exact absurd ⟨more, by simp [twoMarks]⟩ hfree
  · rw [hlist] at hdone
    rw [hjoined, hmore, (List.append_cancel_left hdone)]

/-! ### Joining pass by pass -/

/-- One pass from left to right. Two question marks with the separator between them become one, and
the pass goes on behind them. -/
def joinPairs (separator : List Char) : List Char → List Char
  | [] => []
  | c :: rest =>
    if c = '?' ∧ (separator ++ ['?']).isPrefixOf rest then
      '?' :: joinPairs separator (rest.drop (separator.length + 1))
    else c :: joinPairs separator rest
termination_by text => text.length
decreasing_by
  all_goals
    simp only [List.length_drop, List.length_cons]
    omega

/-- Pass after pass is made as long as there are neighbours in the text. -/
inductive JoinsTo (separator : List Char) : (text result : List Char) → Prop
  | done {text : List Char} : ¬ twoMarks separator <:+: text → JoinsTo separator text text
  | again {text result : List Char} :
      twoMarks separator <:+: text → JoinsTo separator (joinPairs separator text) result →
      JoinsTo separator text result

/-- At the front of a text there is a pair, or its first character is kept. -/
theorem joinPairs_cons (separator rest : List Char) (c : Char) :
    (∃ more, c = '?' ∧ rest = separator ++ '?' :: more ∧
      joinPairs separator (c :: rest) = '?' :: joinPairs separator more) ∨
    ¬ twoMarks separator <+: c :: rest ∧
      joinPairs separator (c :: rest) = c :: joinPairs separator rest := by
  by_cases h : c = '?' ∧ (separator ++ ['?']).isPrefixOf rest = true
  · obtain ⟨more, hmore⟩ := List.isPrefixOf_iff_prefix.mp h.2
    have hrest : rest = separator ++ '?' :: more := by simp [← hmore]
    refine .inl ⟨more, h.1, hrest, ?_⟩
    rw [joinPairs, if_pos h, ← hmore, List.drop_left' (by simp)]
  · refine .inr ⟨fun hmarks => h ?_, by rw [joinPairs, if_neg h]⟩
    rw [twoMarks, List.cons_prefix_cons] at hmarks
    exact ⟨hmarks.1.symm, List.isPrefixOf_iff_prefix.mpr hmarks.2⟩

/-- A pass does not change what the text is joined to. -/
theorem collapse_joinPairs (hseparator : '?' ∉ separator) (text : List Char) :
    collapse separator (joinPairs separator text) = collapse separator text := by
  fun_induction joinPairs separator text with
  | case1 => rfl
  | case2 c rest hpair ih =>
    obtain ⟨rfl, hlist⟩ := hpair
    obtain ⟨more, hmore⟩ := List.isPrefixOf_iff_prefix.mp hlist
    rw [← hmore, List.drop_left' (by simp)] at ih ⊢
    rw [List.append_assoc, List.singleton_append, collapse_twoMarks hseparator]
    exact collapse_append_congr ['?'] ih
  | case3 c rest _ ih => exact collapse_append_congr [c] ih

theorem length_joinPairs_le (separator text : List Char) :
    (joinPairs separator text).length ≤ text.length := by
  fun_induction joinPairs separator text with
  | case1 => exact Nat.le_refl _
  | case2 c rest _ ih =>
    simp only [List.length_cons, List.length_drop] at ih ⊢
    omega
  | case3 c rest _ ih => exact Nat.succ_le_succ ih

/-- Where there are neighbours a pass makes the text shorter. -/
theorem length_joinPairs_lt (h : twoMarks separator <:+: text) :
    (joinPairs separator text).length < text.length := by
  induction text with
  | nil => simp [twoMarks] at h
  | cons c rest ih =>
    rcases joinPairs_cons separator rest c with ⟨more, rfl, rfl, hjoin⟩ | ⟨hfree, hjoin⟩
    · have hmore := length_joinPairs_le separator more
      rw [hjoin]
      simp only [List.length_cons, List.length_append]
      omega
    · have hrest := ih ((List.infix_cons_iff.mp h).resolve_left hfree)
      rw [hjoin, List.length_cons, List.length_cons]
      omega

/-- The passes come to an end, and then the text is as if it had been joined from the right in one
go. -/
theorem joinsTo_collapse (hseparator : '?' ∉ separator) (text : List Char) :
    JoinsTo separator text (collapse separator text) := by
  induction hn : text.length using Nat.strongRecOn generalizing text with
  | _ n ih =>
    subst hn
    by_cases h : twoMarks separator <:+: text
    · have hpass := ih _ (length_joinPairs_lt h) (joinPairs separator text) rfl
      rw [collapse_joinPairs hseparator] at hpass
      exact .again h hpass
    · have hself := collapse_eq_self h
      rw [hself]
      exact .done h

/-! ### Lists with two kinds of separators -/

/-- The text with its lists joined: first those with a space behind the comma, then the others. -/
def joined (text : List Char) : List Char := collapse [','] (collapse [',', ' '] text)

/-- Question marks with commas between them, which may have a space behind them. -/
inductive IsMarks : List Char → Prop
  | one : IsMarks ['?']
  | comma {marks : List Char} : IsMarks marks → IsMarks ('?' :: ',' :: marks)
  | spacedComma {marks : List Char} : IsMarks marks → IsMarks ('?' :: ',' :: ' ' :: marks)

theorem IsMarks.exists_eq_cons {marks : List Char} (h : IsMarks marks) :
    ∃ more, marks = '?' :: more := by
  cases h <;> exact ⟨_, rfl⟩

theorem IsMarks.exists_eq_concat {marks : List Char} (h : IsMarks marks) :
    ∃ more, marks = more ++ ['?'] := by
  induction h with
  | one => exact ⟨[], rfl⟩
  | comma _ ih =>
    obtain ⟨more, rfl⟩ := ih
    exact ⟨'?' :: ',' :: more, rfl⟩
  | spacedComma _ ih =>
    obtain ⟨more, rfl⟩ := ih
    exact ⟨'?' :: ',' :: ' ' :: more, rfl⟩

/-- A list that goes on behind a text ends at its first question mark. -/
private theorem prefix_concat_of_prefix {front more : List Char} (hseparator : '?' ∉ separator)
    (h : separator ++ ['?'] <+: front ++ '?' :: more) : separator ++ ['?'] <+: front ++ ['?'] := by
  have hfront : front ++ ['?'] <+: front ++ '?' :: more := ⟨more, by simp⟩
  rcases Nat.le_total (separator ++ ['?']).length (front ++ ['?']).length with hle | hge
  · exact List.prefix_of_prefix_length_le h hfront hle
  · have hinside : front ++ ['?'] <+: separator ++ ['?'] :=
      List.prefix_of_prefix_length_le hfront h hge
    rcases List.prefix_concat_iff.mp hinside with hsame | hshorter
    · exact ⟨[], by rw [List.append_nil, hsame]⟩
    · exact absurd (hshorter.subset (List.mem_append_right front List.mem_cons_self)) hseparator

/-- What becomes of the text in front of a question mark does not depend on what stands behind
it. -/
theorem exists_collapse_append_mark (hseparator : '?' ∉ separator) (front : List Char) :
    ∃ front', ∀ rest, collapse separator (front ++ '?' :: rest) =
      front' ++ collapse separator ('?' :: rest) := by
  induction front with
  | nil => exact ⟨[], fun rest => rfl⟩
  | cons c front ih =>
    obtain ⟨front', hfront'⟩ := ih
    by_cases h : c = '?' ∧ separator ++ ['?'] <+: front' ++ ['?']
    · obtain ⟨rfl, hlist⟩ := h
      refine ⟨front'.drop separator.length, fun rest => ?_⟩
      obtain ⟨more, hmore⟩ := exists_collapse_mark separator rest
      have hfull : (separator ++ ['?']).isPrefixOf (collapse separator (front ++ '?' :: rest)) := by
        rw [List.isPrefixOf_iff_prefix, hfront', hmore]
        exact hlist.trans ⟨more, by simp⟩
      have hlength : separator.length ≤ front'.length := by
        have := hlist.length_le
        simpa using this
      rw [List.cons_append, collapse, if_pos ⟨rfl, hfull⟩, hfront',
        List.drop_append_of_le_length hlength]
    · refine ⟨c :: front', fun rest => ?_⟩
      rw [List.cons_append]
      rcases collapse_cons separator (front ++ '?' :: rest) c with
        ⟨hkept, -⟩ | ⟨more, rfl, hdone, -⟩
      · rw [hkept, hfront', List.cons_append]
      · obtain ⟨more', hmore'⟩ := exists_collapse_mark separator rest
        have hlist : separator ++ ['?'] <+: front' ++ '?' :: more' :=
          ⟨more, by rw [← hmore', ← hfront', hdone, List.append_assoc, List.singleton_append]⟩
        exact absurd ⟨rfl, prefix_concat_of_prefix hseparator hlist⟩ h

theorem joined_spacedComma (front rest : List Char) :
    joined (front ++ '?' :: ',' :: ' ' :: '?' :: rest) = joined (front ++ '?' :: rest) := by
  have hpair : collapse [',', ' '] ('?' :: ([',', ' '] ++ '?' :: rest)) =
      collapse [',', ' '] ('?' :: rest) :=
    collapse_twoMarks (by decide) rest
  exact congrArg (collapse [',']) (collapse_append_congr front hpair)

/-- The commas without a space are joined in the second step. Behind the first one they are still
there, and what stands in front of them does not depend on them. -/
theorem joined_comma (front rest : List Char) :
    joined (front ++ '?' :: ',' :: '?' :: rest) = joined (front ++ '?' :: rest) := by
  have hspaced : '?' ∉ [',', ' '] := by decide
  obtain ⟨front', hfront'⟩ := exists_collapse_append_mark hspaced front
  obtain ⟨more, hmore⟩ := exists_collapse_mark [',', ' '] rest
  have hpair : collapse [',', ' '] ('?' :: ',' :: '?' :: rest) = '?' :: ([','] ++ '?' :: more) := by
    have hcomma : collapse [',', ' '] (',' :: '?' :: rest) = ',' :: '?' :: more := by
      rw [collapse_cons_of_ne (by decide), hmore]
    rcases collapse_cons [',', ' '] (',' :: '?' :: rest) '?' with ⟨hkept, -⟩ | ⟨more', -, hdone, -⟩
    · rw [hkept, hcomma]
      rfl
    · rw [hcomma] at hdone
      simp at hdone
  rw [joined, joined, hfront', hfront', hmore, hpair]
  exact collapse_append_congr front' (collapse_twoMarks (by decide) more)

/-- A list becomes a single question mark, whatever surrounds it. -/
theorem joined_marks {marks : List Char} (h : IsMarks marks) (front rest : List Char) :
    joined (front ++ (marks ++ rest)) = joined (front ++ '?' :: rest) := by
  induction h with
  | one => rfl
  | comma hmarks ih =>
    obtain ⟨more, rfl⟩ := hmarks.exists_eq_cons
    exact (joined_comma front (more ++ rest)).trans ih
  | spacedComma hmarks ih =>
    obtain ⟨more, rfl⟩ := hmarks.exists_eq_cons
    exact (joined_spacedComma front (more ++ rest)).trans ih

/-- No blanks are cut off within a text that begins and ends with a question mark. -/
theorem exists_trim_marks (front rest : List Char) :
    ∃ front' rest', ∀ marks, IsMarks marks →
      Text.trim (front ++ (marks ++ rest)) = front' ++ (marks ++ rest') := by
  refine ⟨front.dropWhile Text.isBlank, Text.trimEnd rest, fun marks hmarks => ?_⟩
  obtain ⟨more, hmore⟩ := hmarks.exists_eq_cons
  obtain ⟨more', hmore'⟩ := hmarks.exists_eq_concat
  have hfront : (front ++ (marks ++ rest)).dropWhile Text.isBlank =
      front.dropWhile Text.isBlank ++ (marks ++ rest) := by
    rw [List.dropWhile_append]
    split
    · rename_i hblank
      rw [List.isEmpty_iff.mp hblank, hmore]
      exact dropWhile_eq_self rfl
    · rfl
  have hrest : ∀ front, Text.trimEnd (front ++ (marks ++ rest)) =
      front ++ (marks ++ Text.trimEnd rest) := by
    intro front
    rw [Text.trimEnd, Text.trimEnd, List.reverse_append, List.reverse_append, List.append_assoc,
      List.dropWhile_append]
    split
    · rename_i hblank
      rw [List.isEmpty_iff.mp hblank, hmore']
      have hself : ((more' ++ ['?']).reverse ++ front.reverse).dropWhile Text.isBlank =
          (more' ++ ['?']).reverse ++ front.reverse :=
        dropWhile_eq_self (by simp; rfl)
      rw [hself]
      simp
    · simp
  rw [Text.trim, hfront, hrest]

/-- A list becomes the same as any other list in its place, also at the ends of a text that is cut
to size. -/
theorem joined_trim_marks {marks marks' : List Char} (h : IsMarks marks) (h' : IsMarks marks')
    (front rest : List Char) :
    joined (Text.trim (front ++ (marks ++ rest))) =
      joined (Text.trim (front ++ (marks' ++ rest))) := by
  obtain ⟨front', rest', htrim⟩ := exists_trim_marks front rest
  rw [htrim marks h, htrim marks' h', joined_marks h, joined_marks h']

end Redaction

end QueryTelemetry
