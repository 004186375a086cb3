import QueryTelemetry.Text.Blank

/-!
# Words of a connection string

A connection string is a list of words `key=value`. Blanks may stand around the words and around
the equals sign. A value in single quotes may hold blanks, and a backslash takes the next character
as it is.
-/

namespace QueryTelemetry

namespace Connection

/-- Reads a value up to its closing quote. -/
def quotedValue? : List Char → Option (List Char × List Char)
  | [] => none
  | ['\\'] => none
  | '\'' :: rest => some ([], rest)
  | '\\' :: c :: rest => (quotedValue? rest).map fun (value, after) => (c :: value, after)
  | c :: rest => (quotedValue? rest).map fun (value, after) => (c :: value, after)

/-- Reads a value up to the next blank. A backslash at the end of the string is dropped. -/
def bareValue : List Char → List Char × List Char
  | [] => ([], [])
  | ['\\'] => ([], [])
  | '\\' :: c :: rest =>
    let (value, after) := bareValue rest
    (c :: value, after)
  | c :: rest =>
    if Text.isBlank c then ([], c :: rest)
    else
      let (value, after) := bareValue rest
      (c :: value, after)

/-- Reads a value, which may be empty only in quotes. -/
def value? : List Char → Option (List Char × List Char)
  | '\'' :: rest => quotedValue? rest
  | rest =>
    let (value, after) := bareValue rest
    if value.isEmpty then none else some (value, after)

/-- Whether a character may be part of a key. -/
def isKeyChar (c : Char) : Bool := !(Text.isBlank c || c == '=')

/-- Reads what follows a key: the equals sign and the value. -/
def assignment? (text : List Char) : Option (List Char × List Char) :=
  match text.dropWhile Text.isBlank with
  | '=' :: rest => value? (rest.dropWhile Text.isBlank)
  | _ => none

/-- The closing quote takes up a character. -/
theorem length_of_quotedValue? {text value after : List Char}
    (h : quotedValue? text = some (value, after)) :
    value.length + after.length < text.length := by
  fun_induction quotedValue? text generalizing value with
  | case1 => simp at h
  | case2 => simp at h
  | case3 => simp_all
  | case4 c rest ih =>
    simp only [Option.map_eq_some_iff, Prod.mk.injEq, Prod.exists] at h
    obtain ⟨tail, _, found, rfl, rfl⟩ := h
    have := ih found
    simp only [List.length_cons]
    omega
  | case5 c rest _ _ _ ih =>
    simp only [Option.map_eq_some_iff, Prod.mk.injEq, Prod.exists] at h
    obtain ⟨tail, _, found, rfl, rfl⟩ := h
    have := ih found
    simp only [List.length_cons]
    omega

/-- A value is copied, or a backslash takes up a character. -/
theorem length_of_bareValue (text : List Char) :
    (bareValue text).1.length + (bareValue text).2.length < text.length ∨
      text = (bareValue text).1 ++ (bareValue text).2 ∧
        ∀ c ∈ (bareValue text).1, Text.isBlank c = false ∧ c ≠ '\\' := by
  fun_induction bareValue text with
  | case1 => simp
  | case2 => simp
  | case3 c rest value after found ih =>
    simp only [found] at ih
    rcases ih with shorter | ⟨rfl, -⟩
    · left; simp only [List.length_cons]; omega
    · left; simp only [List.length_cons, List.length_append]; omega
  | case4 => simp
  | case5 c rest single escaping blank value after found ih =>
    simp only [found] at ih
    rcases ih with shorter | ⟨rfl, plain⟩
    · left; simp only [List.length_cons]; omega
    · refine .inr ⟨rfl, fun d hd => ?_⟩
      rcases List.mem_cons.mp hd with rfl | hd
      · refine ⟨by simpa using blank, fun heq => ?_⟩
        cases hrest : value ++ after with
        | nil => exact single heq hrest
        | cons next others => exact escaping next others heq hrest
      · exact plain d hd

theorem length_le_of_value? {text value after : List Char} (h : value? text = some (value, after)) :
    after.length ≤ text.length := by
  unfold value? at h
  split at h
  · have := length_of_quotedValue? h
    simp only [List.length_cons]
    omega
  · have := length_of_bareValue text
    grind

private theorem length_dropBlank_le (text : List Char) :
    (text.dropWhile Text.isBlank).length ≤ text.length :=
  (List.dropWhile_sublist Text.isBlank).length_le

theorem length_of_assignment? {text value after : List Char}
    (h : assignment? text = some (value, after)) :
    ∃ spelled, value? spelled = some (value, after) ∧ spelled.length < text.length := by
  unfold assignment? at h
  have outer := length_dropBlank_le text
  split at h
  · rename_i rest found
    have inner := length_dropBlank_le rest
    rw [found, List.length_cons] at outer
    exact ⟨_, h, by omega⟩
  · simp at h

theorem length_le_of_assignment? {text value after : List Char}
    (h : assignment? text = some (value, after)) : after.length ≤ text.length := by
  obtain ⟨spelled, hvalue, hlength⟩ := length_of_assignment? h
  have := length_le_of_value? hvalue
  omega

/-- The words of a connection string, in order. Everything after a place where a key is due and an
equals sign stands instead is ignored. -/
def words? (text : List Char) : Option (List (String × String)) :=
  let rest := text.dropWhile Text.isBlank
  let key := rest.takeWhile isKeyChar
  if key.isEmpty then some []
  else
    match _ : assignment? (rest.dropWhile isKeyChar) with
    | none => none
    | some (value, after) =>
      (words? after).map ((String.ofList key, String.ofList value) :: ·)
termination_by text.length
decreasing_by
  have value := length_le_of_assignment? (by assumption)
  have front : rest.length ≤ text.length := length_dropBlank_le text
  have parts : (key ++ rest.dropWhile isKeyChar).length = rest.length :=
    congrArg List.length List.takeWhile_append_dropWhile
  have nonempty : 0 < key.length := by
    simpa [List.length_pos_iff] using ‹¬(List.isEmpty _ = true)›
  simp only [List.length_append] at parts
  omega

end Connection

end QueryTelemetry
