import Mathlib.Data.List.Basic
import QueryTelemetry.Connection.Words

/-!
# Well-formed connection strings

A well-formed connection string is a list of words with blanks between them (`Separated`). A `Word`
is a key, an equals sign and a value that is spelled as it is allowed to be spelled (`Spells`): with
a backslash before some of its characters, or in quotes.

The strings that `words?` reads are more than these: it takes quoted values with no blank behind
them, drops a backslash at the end, and ignores the rest of the string where an equals sign stands
in place of a key. What stands in a well-formed string is read in the same way whatever stands
behind it (`words?_append`).
-/

namespace QueryTelemetry

namespace Connection

/-! ### Spelled values -/

/-- A text with a backslash before every character that ends it and before every backslash, and
the value that the text stands for. There may be a backslash before any other character. -/
inductive Escapes (ends : Char → Bool) : List Char → List Char → Prop
  | nil : Escapes ends [] []
  | asItIs {c : Char} {spelling value : List Char} (continues : ends c = false)
      (not_backslash : c ≠ '\\') (rest : Escapes ends spelling value) :
      Escapes ends (c :: spelling) (c :: value)
  | escaped {spelling value : List Char} (c : Char) (rest : Escapes ends spelling value) :
      Escapes ends ('\\' :: c :: spelling) (c :: value)

/-- How a value can be spelled: without quotes if it is not empty, or in quotes. -/
inductive Spells : List Char → List Char → Prop
  | bare {spelling value : List Char} (escapes : Escapes Text.isBlank spelling value)
      (value_ne_nil : value ≠ []) (unquoted : spelling.head? ≠ some '\'') : Spells spelling value
  | quoted {spelling value : List Char} (escapes : Escapes (· == '\'') spelling value) :
      Spells ('\'' :: (spelling ++ ['\''])) value

section

variable {spelling value rest : List Char}

theorem quotedValue?_append (h : Escapes (· == '\'') spelling value) :
    quotedValue? (spelling ++ '\'' :: rest) = some (value, rest) := by
  induction h with
  | nil => rw [List.nil_append, quotedValue?]
  | asItIs continues not_backslash _ ih =>
    rw [List.cons_append, quotedValue?, ih, Option.map_some]
    · exact fun heq _ => not_backslash heq
    · exact fun heq => by simp [heq] at continues
    · exact fun _ _ heq _ => not_backslash heq
  | escaped c _ ih => rw [List.cons_append, List.cons_append, quotedValue?, ih, Option.map_some]

theorem bareValue_blank {c : Char} (h : Text.isBlank c = true) (text : List Char) :
    bareValue (c :: text) = ([], c :: text) := by
  have not_backslash : c ≠ '\\' := fun heq => by
    rw [heq] at h
    exact absurd h (by decide)
  rw [bareValue.eq_def]
  split <;> simp_all

theorem bareValue_asItIs {c : Char} (continues : Text.isBlank c = false)
    (not_backslash : c ≠ '\\') (text : List Char) :
    bareValue (c :: text) = (c :: (bareValue text).1, (bareValue text).2) := by
  rw [bareValue.eq_def]
  split <;> simp_all

theorem bareValue_escaped (c : Char) (text : List Char) :
    bareValue ('\\' :: c :: text) = (c :: (bareValue text).1, (bareValue text).2) := by
  rw [bareValue.eq_def]
  rfl

theorem bareValue_append (h : Escapes Text.isBlank spelling value)
    (hrest : rest.head?.all Text.isBlank = true) :
    bareValue (spelling ++ rest) = (value, rest) := by
  induction h with
  | nil =>
    cases rest with
    | nil => rw [List.nil_append, bareValue.eq_def]
    | cons c rest => exact bareValue_blank (by simpa using hrest) rest
  | asItIs continues not_backslash _ ih =>
    rw [List.cons_append, bareValue_asItIs continues not_backslash, ih]
  | escaped c _ ih => rw [List.cons_append, List.cons_append, bareValue_escaped, ih]

theorem value?_append (h : Spells spelling value) (hrest : rest.head?.all Text.isBlank = true) :
    value? (spelling ++ rest) = some (value, rest) := by
  cases h with
  | bare escapes value_ne_nil unquoted =>
    have hvalue : value.isEmpty = false := by simpa using value_ne_nil
    rw [value?, bareValue_append escapes hrest]
    · simp [hvalue]
    · intro text heq
      cases escapes with
      | nil => exact value_ne_nil rfl
      | asItIs => exact unquoted (by simp_all)
      | escaped => simp at heq
  | quoted escapes =>
    rw [List.cons_append, List.append_assoc, List.singleton_append, value?,
      quotedValue?_append escapes]

/-- A spelled value begins with a character that is not blank. -/
theorem Spells.exists_eq_cons (h : Spells spelling value) :
    ∃ c text, spelling = c :: text ∧ Text.isBlank c = false := by
  cases h with
  | bare escapes value_ne_nil =>
    cases escapes with
    | nil => exact absurd rfl value_ne_nil
    | asItIs continues => exact ⟨_, _, rfl, continues⟩
    | escaped => exact ⟨_, _, rfl, rfl⟩
  | quoted => exact ⟨_, _, rfl, rfl⟩

end

/-! ### Words -/

theorem not_isBlank_of_isKeyChar {c : Char} (h : isKeyChar c = true) : Text.isBlank c = false := by
  simp only [isKeyChar, Bool.not_or, Bool.and_eq_true, Bool.not_eq_true'] at h
  exact h.1

/-- A key and a value, as they are written. -/
structure Word where
  key : String
  /-- The blanks before the equals sign. -/
  before : List Char
  /-- The blanks behind the equals sign. -/
  behind : List Char
  spelling : List Char
  value : String
  key_ne_empty : key ≠ ""
  isKeyChar_of_mem_key : ∀ c ∈ key.toList, isKeyChar c = true
  isBlank_of_mem_before : ∀ c ∈ before, Text.isBlank c = true
  isBlank_of_mem_behind : ∀ c ∈ behind, Text.isBlank c = true
  spells : Spells spelling value.toList

namespace Word

/-- The word as it stands in a connection string. -/
def text (w : Word) : List Char := w.key.toList ++ w.before ++ '=' :: (w.behind ++ w.spelling)

/-- What the word says. -/
def pair (w : Word) : String × String := (w.key, w.value)

variable (w : Word)

theorem key_ne_nil : w.key.toList ≠ [] := by simpa using w.key_ne_empty

/-- A word begins with a character that is not blank. -/
theorem exists_text_eq_cons : ∃ c text, w.text = c :: text ∧ Text.isBlank c = false := by
  obtain ⟨c, key, hkey⟩ := List.exists_cons_of_ne_nil w.key_ne_nil
  exact ⟨c, _, by rw [text, hkey]; rfl,
    not_isBlank_of_isKeyChar (w.isKeyChar_of_mem_key c (hkey ▸ List.mem_cons_self))⟩

theorem isKeyChar_head?_behind_key (rest : List Char) :
    (w.before ++ '=' :: rest).head?.any isKeyChar = false := by
  cases h : w.before with
  | nil => rfl
  | cons c before =>
    have blank : Text.isBlank c = true := w.isBlank_of_mem_before c (h ▸ List.mem_cons_self)
    simp [isKeyChar, blank]

end Word

/-! ### Reading a well-formed string -/

section

variable {text rest blanks : List Char} {words : List Word}

theorem dropWhile_append_eq {p : Char → Bool} {front : List Char}
    (h : ∀ c ∈ front, p c = true) (hrest : rest.head?.any p = false) :
    (front ++ rest).dropWhile p = rest := by
  rw [List.dropWhile_append_of_pos h]
  cases rest with
  | nil => rfl
  | cons c rest => rw [List.dropWhile_cons_of_neg (by simpa using hrest)]

theorem takeWhile_append_eq {p : Char → Bool} {front : List Char}
    (h : ∀ c ∈ front, p c = true) (hrest : rest.head?.any p = false) :
    (front ++ rest).takeWhile p = front := by
  rw [List.takeWhile_append_of_pos h]
  cases rest with
  | nil => exact List.append_nil front
  | cons c rest => rw [List.takeWhile_cons_of_neg (by simpa using hrest), List.append_nil]

/-- One step of the reader: the key, its value, and what is behind them. -/
theorem words?_eq_bind (text : List Char) :
    words? text =
      if ((text.dropWhile Text.isBlank).takeWhile isKeyChar).isEmpty then some []
      else
        (assignment? ((text.dropWhile Text.isBlank).dropWhile isKeyChar)).bind fun found =>
          (words? found.2).map
            ((String.ofList ((text.dropWhile Text.isBlank).takeWhile isKeyChar),
              String.ofList found.1) :: ·) := by
  rw [words?.eq_def]
  simp only
  refine ite_congr rfl (fun _ => rfl) fun _ => ?_
  split <;> rename_i found <;> rw [found] <;> rfl

@[simp]
theorem words?_nil : words? [] = some [] := by
  rw [words?_eq_bind]
  rfl

/-- Blanks at the start of a string make no difference. -/
theorem words?_blanks_append (h : ∀ c ∈ blanks, Text.isBlank c = true) :
    words? (blanks ++ text) = words? text := by
  rw [words?_eq_bind, List.dropWhile_append_of_pos h, ← words?_eq_bind]

theorem assignment?_append (w : Word) (hrest : rest.head?.all Text.isBlank = true) :
    assignment? (w.before ++ '=' :: (w.behind ++ w.spelling ++ rest)) =
      some (w.value.toList, rest) := by
  obtain ⟨c, spelling, hspelling, hc⟩ := w.spells.exists_eq_cons
  have hbehind : (w.behind ++ (w.spelling ++ rest)).dropWhile Text.isBlank = w.spelling ++ rest :=
    dropWhile_append_eq w.isBlank_of_mem_behind (by simp [hspelling, hc])
  rw [assignment?, dropWhile_append_eq w.isBlank_of_mem_before rfl, List.append_assoc]
  simp only [hbehind]
  exact value?_append w.spells hrest

/-- A word at the start of a string is read first. -/
theorem words?_word_append (w : Word) (hrest : rest.head?.all Text.isBlank = true) :
    words? (w.text ++ rest) = (words? rest).map (w.pair :: ·) := by
  obtain ⟨c, tail, htext, hc⟩ := w.exists_text_eq_cons
  have hblank : (w.text ++ rest).dropWhile Text.isBlank = w.text ++ rest := by
    rw [htext, List.cons_append, List.dropWhile_cons_of_neg (by simp [hc])]
  have parts : w.text ++ rest =
      w.key.toList ++ (w.before ++ '=' :: (w.behind ++ w.spelling ++ rest)) := by
    simp [Word.text]
  have hhead := w.isKeyChar_head?_behind_key (w.behind ++ w.spelling ++ rest)
  have hkey : w.key.toList.isEmpty = false := by simpa using w.key_ne_empty
  rw [words?_eq_bind, hblank, parts, takeWhile_append_eq w.isKeyChar_of_mem_key hhead,
    dropWhile_append_eq w.isKeyChar_of_mem_key hhead, assignment?_append w hrest, hkey]
  simp [Word.pair]

/-- A text that consists of words, with blanks between them. -/
inductive Separated : List Char → List Word → Prop
  | nil {blanks : List Char} (isBlank_of_mem : ∀ c ∈ blanks, Text.isBlank c = true) :
      Separated blanks []
  | cons {blanks rest : List Char} {words : List Word} (w : Word)
      (isBlank_of_mem : ∀ c ∈ blanks, Text.isBlank c = true)
      (ends : rest.head?.all Text.isBlank = true) (others : Separated rest words) :
      Separated (blanks ++ w.text ++ rest) (w :: words)

theorem Separated.blanks_append (hblanks : ∀ c ∈ blanks, Text.isBlank c = true)
    (h : Separated text words) : Separated (blanks ++ text) words := by
  cases h with
  | nil isBlank_of_mem =>
    exact .nil fun c hc => (List.mem_append.mp hc).elim (hblanks c) (isBlank_of_mem c)
  | cons w isBlank_of_mem ends others =>
    rw [← List.append_assoc, ← List.append_assoc]
    exact .cons w
      (fun c hc => (List.mem_append.mp hc).elim (hblanks c) (isBlank_of_mem c)) ends others

theorem Separated.append {others : List Word} (h : Separated text words)
    (hothers : Separated rest others) (hrest : rest.head?.all Text.isBlank = true) :
    Separated (text ++ rest) (words ++ others) := by
  induction h with
  | nil isBlank_of_mem => exact hothers.blanks_append isBlank_of_mem
  | @cons blanks tail words w isBlank_of_mem ends _ ih =>
    rw [List.append_assoc, List.cons_append]
    refine .cons w isBlank_of_mem ?_ ih
    cases tail with
    | nil => exact hrest
    | cons => exact ends

/-- Words with one blank between any two of them. -/
theorem separated_intercalate (words : List Word) :
    Separated (List.intercalate [' '] (words.map Word.text)) words := by
  induction words with
  | nil => exact .nil (by simp)
  | cons w words ih =>
    cases words with
    | nil =>
      have hword : Separated ([] ++ w.text ++ []) [w] := .cons w (by simp) rfl ih
      simpa using hword
    | cons other words =>
      have hothers : Separated ([' '] ++ _) (other :: words) :=
        ih.blanks_append (List.forall_mem_singleton.mpr rfl)
      have hwords : Separated ([] ++ w.text ++ _) (w :: other :: words) :=
        .cons w (by simp) rfl hothers
      simpa using hwords

/-- A well-formed string is read word by word, and then what stands behind it. -/
theorem words?_append (h : Separated text words) (hrest : rest.head?.all Text.isBlank = true) :
    words? (text ++ rest) = (words? rest).map (words.map Word.pair ++ ·) := by
  induction h with
  | nil isBlank_of_mem => simp [words?_blanks_append isBlank_of_mem]
  | @cons blanks tail words w isBlank_of_mem ends _ ih =>
    have hends : (tail ++ rest).head?.all Text.isBlank = true := by
      cases tail with
      | nil => exact hrest
      | cons => exact ends
    rw [List.append_assoc, List.append_assoc, words?_blanks_append isBlank_of_mem,
      words?_word_append w hends, ih, Option.map_map]
    rfl

/-- A well-formed string says what its words say. -/
theorem words?_of_separated (h : Separated text words) :
    words? text = some (words.map Word.pair) := by
  have hend : ([] : List Char).head?.all Text.isBlank = true := rfl
  simpa using words?_append h hend

end

end Connection

end QueryTelemetry
