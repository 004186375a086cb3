import Mathlib.Data.List.Infix
import QueryTelemetry.Proofs.Redaction.Comments
import QueryTelemetry.Proofs.Redaction.Tokens
import QueryTelemetry.Proofs.Splitting
import QueryTelemetry.Text.Search

/-!
# Finding words in texts that are put together

A text that is put together from parts with a character between them holds a word without this
character only if one of the parts holds it (`isInfix_of_isInfix_append_cons`). What stands before
and after the first occurrence of a word is known where the first letter of the word does not stand
before it.
-/

namespace QueryTelemetry

namespace Text

variable {needle front back rest text blanks : List Char} {c d : Char}

/-! ### Occurrences -/

/-- What holds for the characters of some texts. -/
theorem forall_toList {P : List Char → Prop} {texts : List String} (characters : List (List Char))
    (h : texts = characters.map String.ofList) (hcharacters : ∀ text ∈ characters, P text) :
    ∀ text ∈ texts, P text.toList := by
  subst h
  intro text htext
  obtain ⟨text, hmem, rfl⟩ := List.mem_map.mp htext
  rw [String.toList_ofList]
  exact hcharacters text hmem

/-- A text that is written as two texts. -/
theorem toList_eq_append {whole first second : String} (hfirst : first = String.ofList front)
    (hsecond : second = String.ofList back) (hwhole : whole = String.ofList (front ++ back)) :
    whole.toList = first.toList ++ second.toList := by
  rw [hfirst, hsecond, hwhole, String.toList_ofList, String.toList_ofList, String.toList_ofList]

theorem occursIn_iff : occursIn needle text = true ↔ needle <:+: text := by
  rw [occursIn, ← Option.not_isNone, Bool.not_eq_true', ← Bool.not_eq_true,
    Option.isNone_iff_eq_none, Redaction.afterFirst?_eq_none_iff, not_not]

/-- A word does not reach over a character that is not in it. -/
theorem isInfix_of_isInfix_append_cons (hc : c ∉ needle) (h : needle <:+: front ++ c :: back) :
    needle <:+: front ∨ needle <:+: back := by
  obtain ⟨before, after, htext⟩ := h
  rw [List.append_assoc] at htext
  rcases List.append_eq_append_iff.mp htext with ⟨more, rfl, hrest⟩ | ⟨more, rfl, hrest⟩
  · -- the word begins in the front part, and so it ends there
    rcases List.append_eq_append_iff.mp hrest with ⟨more', rfl, -⟩ | ⟨more', rfl, hcut⟩
    · exact .inl ⟨before, more', by rw [List.append_assoc]⟩
    · rcases more' with _ | ⟨e, more'⟩
      · exact .inl ⟨before, [], by simp⟩
      · rw [List.cons_append, List.cons.injEq] at hcut
        exact absurd (hcut.1 ▸ List.mem_append_right _ List.mem_cons_self) hc
  · rcases more with _ | ⟨e, more⟩
    · rcases needle with _ | ⟨e, needle⟩
      · exact .inl List.nil_infix
      · rw [List.nil_append, List.cons_append, List.cons.injEq] at hrest
        exact absurd (hrest.1 ▸ List.mem_cons_self) hc
    · rw [List.cons_append, List.cons.injEq] at hrest
      exact .inr ⟨more, after, by rw [hrest.2, List.append_assoc]⟩

theorem not_isInfix_append_cons (hc : c ∉ needle) (hfront : ¬ needle <:+: front)
    (hback : ¬ needle <:+: back) : ¬ needle <:+: front ++ c :: back := fun h =>
  (isInfix_of_isInfix_append_cons hc h).elim hfront hback

/-- A word stands in neither part, and it does not reach into the second. -/
theorem not_isInfix_append_of_head (hhead : ∀ c ∈ back.head?, c ∉ needle)
    (hfront : ¬ needle <:+: front) (hback : ¬ needle <:+: back) : ¬ needle <:+: front ++ back := by
  cases back with
  | nil => rwa [List.append_nil]
  | cons c back =>
    exact not_isInfix_append_cons (hhead c rfl) hfront
      fun h => hback (h.trans (List.suffix_cons c back).isInfix)

/-- A text of parts begins as one of them does. -/
theorem exists_of_mem_head?_flatten {parts : List (List Char)} (h : c ∈ parts.flatten.head?) :
    ∃ part ∈ parts, c ∈ part.head? := by
  induction parts with
  | nil => cases h
  | cons part parts ih =>
    cases part with
    | nil =>
      obtain ⟨part, hpart, hc⟩ := ih h
      exact ⟨part, List.mem_cons_of_mem _ hpart, hc⟩
    | cons d part => exact ⟨d :: part, List.mem_cons_self, h⟩

/-- A word stands in no part, and it does not reach from one into the next. -/
theorem not_isInfix_flatten (hne : needle ≠ []) {parts : List (List Char)}
    (hhead : ∀ part ∈ parts, ∀ c ∈ part.head?, c ∉ needle)
    (hparts : ∀ part ∈ parts, ¬ needle <:+: part) : ¬ needle <:+: parts.flatten := by
  induction parts with
  | nil => exact fun hinside => hne (List.eq_nil_of_infix_nil hinside)
  | cons part parts ih =>
    obtain ⟨-, hheads⟩ := List.forall_mem_cons.mp hhead
    obtain ⟨hpart, hrest⟩ := List.forall_mem_cons.mp hparts
    refine not_isInfix_append_of_head (fun c hc => ?_) hpart (ih hheads hrest)
    obtain ⟨next, hnext, hfirst⟩ := exists_of_mem_head?_flatten hc
    exact hheads next hnext c hfirst

/-- A word with another character in front of it, and this character nowhere before. -/
theorem afterFirst?_append_of_not_mem (h : c ∉ front) (needle rest : List Char) :
    afterFirst? (c :: needle) (front ++ (c :: needle ++ rest)) = some rest := by
  induction front with
  | nil =>
    have found : (c :: needle).isPrefixOf (c :: (needle ++ rest)) = true :=
      List.isPrefixOf_iff_prefix.mpr ⟨rest, by simp⟩
    rw [List.nil_append, List.cons_append, afterFirst?, if_pos found]
    simp
  | cons d front ih =>
    obtain ⟨hd, hfront⟩ := not_or.mp (mt List.mem_cons.mpr h)
    rw [List.cons_append, Redaction.afterFirst?_cons_of_ne hd]
    exact ih hfront

theorem beforeFirst_append_of_not_mem (h : c ∉ front) (needle rest : List Char) :
    beforeFirst (c :: needle) (front ++ (c :: needle ++ rest)) = front := by
  induction front with
  | nil =>
    have found : (c :: needle).isPrefixOf (c :: (needle ++ rest)) = true :=
      List.isPrefixOf_iff_prefix.mpr ⟨rest, by simp⟩
    rw [List.nil_append, List.cons_append, beforeFirst, if_pos found]
  | cons d front ih =>
    obtain ⟨hd, hfront⟩ := not_or.mp (mt List.mem_cons.mpr h)
    have hnot : ¬ (c :: needle).isPrefixOf (d :: (front ++ (c :: needle ++ rest))) = true := by
      rw [List.isPrefixOf_cons_cons, Bool.and_eq_true, beq_iff_eq]
      exact fun hfound => hd hfound.1
    rw [List.cons_append, beforeFirst, if_neg hnot, ih hfront]

/-! ### Ends of texts -/

/-- Blanks behind a text that does not end in one are all that is cut off. -/
theorem trimEnd_append_blanks (hlast : text.getLast?.any isBlank = false)
    (hblanks : ∀ c ∈ blanks, isBlank c = true) : trimEnd (text ++ blanks) = text := by
  rw [trimEnd, List.reverse_append, List.dropWhile_append_of_pos
    fun c hc => hblanks c (List.mem_reverse.mp hc)]
  exact Redaction.trimEnd_eq_self hlast

/-- Blanks around a word are cut off. -/
theorem trim_blanks (hne : text ≠ []) (htext : ∀ c ∈ text, isBlank c = false)
    (hfront : ∀ c ∈ front, isBlank c = true) (hblanks : ∀ c ∈ blanks, isBlank c = true) :
    trim (front ++ (text ++ blanks)) = text := by
  obtain ⟨c, more, rfl⟩ := List.exists_cons_of_ne_nil hne
  have hlast : (c :: more).getLast?.any isBlank = false := by
    cases hfinal : (c :: more).getLast? with
    | none => rfl
    | some d => exact htext d (List.mem_of_getLast? hfinal)
  rw [trim, List.dropWhile_append_of_pos hfront, List.cons_append,
    List.dropWhile_cons_of_neg (by simp [htext c List.mem_cons_self])]
  exact trimEnd_append_blanks hlast hblanks

theorem takeWhile_append_cons (hfront : c ∉ front) (rest : List Char) :
    (front ++ c :: rest).takeWhile (· ≠ c) = front := by
  rw [List.takeWhile_append_of_pos, List.takeWhile_cons_of_neg (by simp), List.append_nil]
  intro d hd
  exact decide_eq_true fun heq => hfront (heq ▸ hd)

/-- What stands behind the last occurrence of a character. -/
theorem eq_of_append_cons_eq {front' back' : List Char} (hback : c ∉ back) (hback' : c ∉ back')
    (h : front ++ c :: back = front' ++ c :: back') : back = back' := by
  have hreverse := congrArg (fun text => text.reverse.takeWhile (· ≠ c)) h
  simp only [List.reverse_append, List.reverse_cons, List.append_assoc,
    List.singleton_append] at hreverse
  rw [takeWhile_append_cons (by rwa [List.mem_reverse]),
    takeWhile_append_cons (by rwa [List.mem_reverse])] at hreverse
  exact List.reverse_injective hreverse

end Text

end QueryTelemetry
