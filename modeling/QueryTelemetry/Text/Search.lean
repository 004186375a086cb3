/-!
# Finding one text in another

Whether a text occurs in another one, and the parts before and after its first occurrence. The same
for a character of some kind is `splitFirst`.
-/

namespace QueryTelemetry

namespace Text

/-- What follows the first occurrence of `needle`, if it occurs. -/
def afterFirst? (needle : List Char) : List Char → Option (List Char)
  | [] => if needle = [] then some [] else none
  | c :: rest =>
    if needle.isPrefixOf (c :: rest) then some ((c :: rest).drop needle.length)
    else afterFirst? needle rest

/-- What precedes the first occurrence of `needle`, or the whole text if it does not occur. -/
def beforeFirst (needle : List Char) : List Char → List Char
  | [] => []
  | c :: rest => if needle.isPrefixOf (c :: rest) then [] else c :: beforeFirst needle rest

/-- Whether `needle` occurs in the text. -/
def occursIn (needle text : List Char) : Bool :=
  (afterFirst? needle text).isSome

/-- An occurrence stands between what precedes it and what follows it. -/
theorem exists_eq_append_of_afterFirst? {needle text rest : List Char}
    (h : afterFirst? needle text = some rest) : ∃ front, text = front ++ needle ++ rest := by
  induction text with
  | nil =>
    simp only [afterFirst?] at h
    split at h <;> simp_all
  | cons c text ih =>
    simp only [afterFirst?] at h
    split at h
    · rename_i found
      obtain ⟨more, hmore⟩ := List.isPrefixOf_iff_prefix.mp found
      refine ⟨[], ?_⟩
      rw [← Option.some.inj h, ← hmore, List.drop_left, List.nil_append]
    · obtain ⟨front, rfl⟩ := ih h
      exact ⟨c :: front, rfl⟩

/-- What precedes and what follows the first character of a kind; nothing follows if there is no
such character. -/
def splitFirst (separates : Char → Bool) (text : List Char) : List Char × Option (List Char) :=
  (text.takeWhile fun c => !separates c, (text.dropWhile fun c => !separates c).tail?)

/-- What follows a character is shorter than the text. -/
theorem length_lt_of_splitFirst {separates : Char → Bool} {text front rest : List Char}
    (h : splitFirst separates text = (front, some rest)) : rest.length < text.length := by
  simp only [splitFirst, Prod.mk.injEq] at h
  have := (List.dropWhile_sublist (l := text) fun c => !separates c).length_le
  cases found : text.dropWhile fun c => !separates c with
  | nil => simp [found] at h
  | cons c after =>
    simp only [found, List.tail?_cons, Option.some.injEq, List.length_cons] at h this
    rw [← h.2]
    omega

end Text

end QueryTelemetry
