import Mathlib.Algebra.Order.BigOperators.Group.List
import Mathlib.Algebra.Order.Group.Nat
import Mathlib.Data.List.Nodup
import Mathlib.Data.List.Perm.Subperm
import QueryTelemetry.Connection.ConnectionString
import QueryTelemetry.Proofs.Connection.Spelling

/-!
# Values that stand for themselves

A string that is made by writing each value as it is (`spellPlainly`) says these values exactly if
all of them stand for themselves (`IsPlain`): they are not empty, have no blank and no backslash in
them, and do not begin with a quote. The string of the environment is of this kind.

That no other values are read back is a matter of counting. If each word of a string has its key, an
equals sign, its value as it is and a blank behind it, the words have one character more than the
string, whose last word has no blank behind it (`extent_eq_length_spellPlainly`). What is read from
a string never has more, and has no more than the string itself if some value is spelled in another
way (`extent_le_or_isPlain`).
-/

namespace QueryTelemetry

namespace Connection

/-! ### Plain values -/

/-- A value that can be written as it is. -/
structure IsPlain (value : String) : Prop where
  ne_empty : value ≠ ""
  not_isBlank : ∀ c ∈ value.toList, Text.isBlank c = false
  ne_backslash : ∀ c ∈ value.toList, c ≠ '\\'
  unquoted : value.toList.head? ≠ some '\''

instance : DecidablePred IsPlain := fun value =>
  decidable_of_iff
    (value ≠ "" ∧ value.toList.all (fun c => !Text.isBlank c && c != '\\') = true ∧
      value.toList.head? ≠ some '\'') <| by
    simp only [List.all_eq_true, Bool.and_eq_true, Bool.not_eq_true', bne_iff_ne]
    exact ⟨fun ⟨ne, all, unquoted⟩ =>
        ⟨ne, fun c hc => (all c hc).1, fun c hc => (all c hc).2, unquoted⟩,
      fun h => ⟨h.ne_empty, fun c hc => ⟨h.not_isBlank c hc, h.ne_backslash c hc⟩, h.unquoted⟩⟩

theorem escapes_self {ends : Char → Bool} {text : List Char}
    (h : ∀ c ∈ text, ends c = false ∧ c ≠ '\\') : Escapes ends text text := by
  induction text with
  | nil => exact .nil
  | cons c text ih =>
    obtain ⟨hends, hc⟩ := h c List.mem_cons_self
    exact .asItIs hends hc (ih fun d hd => h d (List.mem_cons_of_mem c hd))

theorem IsPlain.spells {value : String} (h : IsPlain value) :
    Spells value.toList value.toList :=
  .bare (escapes_self fun c hc => ⟨h.not_isBlank c hc, h.ne_backslash c hc⟩)
    (by simpa using h.ne_empty) h.unquoted

/-! ### What words take up -/

/-- The characters in the words if each value is written as it is, and a blank behind each word. -/
def extent : List (String × String) → Nat
  | [] => 0
  | pair :: pairs => pair.1.length + pair.2.length + 2 + extent pairs

theorem extent_le_of_subset {pairs others : List (String × String)} (distinct : pairs.Nodup)
    (h : pairs ⊆ others) : extent pairs ≤ extent others := by
  have hsum : ∀ pairs, extent pairs =
      (pairs.map fun pair => pair.1.length + pair.2.length + 2).sum := fun pairs => by
    induction pairs with
    | nil => rfl
    | cons pair pairs ih => rw [extent, ih, List.map_cons, List.sum_cons]
  obtain ⟨sorted, perm, sublist⟩ := List.subperm_of_subset distinct h
  rw [hsum, hsum, ← (perm.map _).sum_eq]
  exact (sublist.map _).sum_le_sum fun _ _ => Nat.zero_le _

section

variable {text value after : List Char}

/-- A value without quotes ends at a blank. -/
theorem head?_of_bareValue (text : List Char) :
    (bareValue text).2.head?.all Text.isBlank = true := by
  fun_induction bareValue text <;> simp_all

/-- A value in quotes takes up two characters more than it has; one without quotes ends at a blank
and takes up more characters than it has unless it is plain. -/
theorem length_of_value? (h : value? text = some (value, after)) :
    value.length + after.length + 2 ≤ text.length ∨
      after.head?.all Text.isBlank = true ∧
        (value.length + after.length < text.length ∨
          value.length + after.length = text.length ∧ IsPlain (String.ofList value)) := by
  unfold value? at h
  split at h
  · have := length_of_quotedValue? h
    left
    simp only [List.length_cons]
    omega
  · rename_i unquoted
    simp only [Option.ite_none_left_eq_some, List.isEmpty_iff, Option.some.injEq] at h
    obtain ⟨hne, hread⟩ : (bareValue text).1 ≠ [] ∧ bareValue text = (value, after) := h
    have value_ne_nil : value ≠ [] := by rwa [hread] at hne
    have ends := head?_of_bareValue text
    have length := length_of_bareValue text
    rw [hread] at ends length
    refine .inr ⟨ends, length.imp_right fun ⟨htext, plain⟩ => ⟨by simp [htext], ?_⟩⟩
    exact {
      ne_empty := by simpa using value_ne_nil
      not_isBlank := fun c hc => (plain c (by simpa using hc)).1
      ne_backslash := fun c hc => (plain c (by simpa using hc)).2
      unquoted := fun hhead => by
        cases value with
        | nil => exact value_ne_nil rfl
        | cons c value => exact unquoted (value ++ after) (by simp_all) }

end

section

variable {text : List Char} {pair : String × String} {pairs : List (String × String)}

/-- The first word of a string: its key, the spelling of its value, and what is behind it. -/
theorem exists_of_words?_eq_cons (h : words? text = some (pair :: pairs)) :
    ∃ spelled value after, value? spelled = some (value, after) ∧
      pair.2 = String.ofList value ∧ words? after = some pairs ∧
      pair.1.length + spelled.length < (text.dropWhile Text.isBlank).length := by
  rw [words?_eq_bind] at h
  split at h
  · simp at h
  · obtain ⟨⟨value, after⟩, hassigned, hrest⟩ := Option.bind_eq_some_iff.mp h
    obtain ⟨others, hothers, heq⟩ := Option.map_eq_some_iff.mp hrest
    obtain ⟨rfl, rfl⟩ := List.cons.inj heq
    obtain ⟨spelled, hspelled, hlength⟩ := length_of_assignment? hassigned
    have parts := congrArg List.length
      (List.takeWhile_append_dropWhile (p := isKeyChar) (l := text.dropWhile Text.isBlank))
    rw [List.length_append] at parts
    exact ⟨spelled, value, after, hspelled, rfl, hothers, by simp; omega⟩

/-- If each value is written as it is, a string has the characters of the words and the blanks
between them; otherwise it has more. -/
theorem extent_le_or_isPlain (h : words? text = some pairs) :
    extent pairs ≤ (text.dropWhile Text.isBlank).length ∨
      extent pairs = (text.dropWhile Text.isBlank).length + 1 ∧ ∀ pair ∈ pairs, IsPlain pair.2 := by
  induction pairs generalizing text with
  | nil => exact .inl (Nat.zero_le _)
  | cons pair pairs ih =>
    obtain ⟨spelled, value, after, hvalue, hpair, hafter, hlength⟩ := exists_of_words?_eq_cons h
    have hpair_length : pair.2.length = value.length := by simp [hpair]
    have tail := (List.dropWhile_sublist (l := after) Text.isBlank).length_le
    rw [extent]
    rcases length_of_value? hvalue with quoted | ⟨ends, bare⟩
    · rcases ih hafter with shorter | ⟨exact_, -⟩ <;> left <;> omega
    · -- The blank that ends the value is none of the characters of the words behind it.
      have others : extent pairs < after.length ∨
          extent pairs ≤ after.length ∧ ∀ pair ∈ pairs, IsPlain pair.2 := by
        cases after with
        | nil =>
          obtain rfl : [] = pairs := Option.some.inj (words?_nil.symm.trans hafter)
          exact .inr ⟨Nat.le_refl 0, by simp⟩
        | cons c after =>
          have shorter := (List.dropWhile_sublist (l := after) Text.isBlank).length_le
          have others := ih hafter
          rw [List.dropWhile_cons_of_pos (by simpa using ends)] at others
          rcases others with less | ⟨exact_, plain⟩
          · left; simp only [List.length_cons]; omega
          · exact .inr ⟨by simp only [List.length_cons]; omega, plain⟩
      rcases others with less | ⟨le, plain⟩
      · left; omega
      · rcases bare with shorter | ⟨exact_, hplain⟩
        · left; omega
        · by_cases heq : pair.1.length + pair.2.length + 2 + extent pairs =
              (text.dropWhile Text.isBlank).length + 1
          · exact .inr ⟨heq, List.forall_mem_cons.mpr ⟨hpair ▸ hplain, plain⟩⟩
          · left; omega

end

/-! ### Strings that say each value as it is -/

/-- What a connection string says of a parameter. The last word counts. -/
def said? (connectionString key : String) : Option String :=
  (words? connectionString.toList).bind fun pairs => pairs.reverse.lookup key

/-- The string of words in which each value is written as it is. -/
def spellPlainly (pairs : List (String × String)) : String :=
  " ".intercalate (pairs.map fun pair => pair.1 ++ "=" ++ pair.2)

/-- A text that can be the key of a word. -/
def IsKey (key : String) : Prop := key ≠ "" ∧ ∀ c ∈ key.toList, isKeyChar c = true

instance : DecidablePred IsKey := fun key =>
  decidable_of_iff (key ≠ "" ∧ key.toList.all isKeyChar = true) <| by
    rw [IsKey, List.all_eq_true]

/-- A word without blanks around its equals sign. -/
def Word.tight (key : String) (isKey : IsKey key) (spelling : List Char) (value : String)
    (spells : Spells spelling value.toList) : Word where
  key := key
  before := []
  behind := []
  spelling := spelling
  value := value
  key_ne_empty := isKey.1
  isKeyChar_of_mem_key := isKey.2
  isBlank_of_mem_before := by simp
  isBlank_of_mem_behind := by simp
  spells := spells

/-- A word with a plain value. -/
def Word.plain (pair : String × String) (key : IsKey pair.1) (value : IsPlain pair.2) : Word :=
  .tight pair.1 key pair.2.toList pair.2 value.spells

section

variable {pairs : List (String × String)} {pair : String × String} {connectionString : String}

theorem Word.text_plain (key : IsKey pair.1) (value : IsPlain pair.2) :
    (Word.plain pair key value).text = pair.1.toList ++ '=' :: pair.2.toList := by
  simp [Word.text, Word.plain, Word.tight]

theorem toList_spellPlainly (pairs : List (String × String)) :
    (spellPlainly pairs).toList =
      List.intercalate [' '] (pairs.map fun pair => pair.1.toList ++ '=' :: pair.2.toList) := by
  simp [spellPlainly, String.toList_intercalate, Function.comp_def]

theorem Word.not_isBlank_plain (key : IsKey pair.1) (value : IsPlain pair.2) :
    ∀ c ∈ (Word.plain pair key value).text, Text.isBlank c = false := by
  intro c hc
  rw [Word.text_plain, List.mem_append, List.mem_cons] at hc
  rcases hc with hkey | rfl | hvalue
  · exact not_isBlank_of_isKeyChar (key.2 c hkey)
  · decide
  · exact value.not_isBlank c hvalue

/-- Plain values can be written as they are in words. -/
theorem exists_plain_words (keys : ∀ pair ∈ pairs, IsKey pair.1)
    (plain : ∀ pair ∈ pairs, IsPlain pair.2) :
    ∃ words : List Word, words.map Word.pair = pairs ∧
      words.map Word.text = pairs.map fun pair => pair.1.toList ++ '=' :: pair.2.toList := by
  induction pairs with
  | nil => exact ⟨[], rfl, rfl⟩
  | cons pair pairs ih =>
    obtain ⟨key, keys⟩ := List.forall_mem_cons.mp keys
    obtain ⟨value, plain⟩ := List.forall_mem_cons.mp plain
    obtain ⟨words, hpairs, htexts⟩ := ih keys plain
    exact ⟨.plain pair key value :: words, by simp [hpairs, Word.pair, Word.plain, Word.tight],
      by simp [htexts, Word.text_plain]⟩

theorem separated_spellPlainly {words : List Word}
    (h : words.map Word.text = pairs.map fun pair => pair.1.toList ++ '=' :: pair.2.toList) :
    Separated (spellPlainly pairs).toList words := by
  rw [toList_spellPlainly, ← h]
  exact separated_intercalate words

/-- Plain values are read back. -/
theorem words?_spellPlainly (keys : ∀ pair ∈ pairs, IsKey pair.1)
    (plain : ∀ pair ∈ pairs, IsPlain pair.2) :
    words? (spellPlainly pairs).toList = some pairs := by
  obtain ⟨words, hpairs, htexts⟩ := exists_plain_words keys plain
  rw [words?_of_separated (separated_spellPlainly htexts), hpairs]

/-- Whatever the value of a word, its key is read. -/
theorem exists_of_words?_spellPlainly (key : IsKey pair.1) {read : List (String × String)}
    (h : words? (spellPlainly [pair]).toList = some read) :
    ∃ value others, read = (pair.1, value) :: others := by
  rw [toList_spellPlainly, List.map_singleton, List.intercalate_singleton, words?_eq_bind] at h
  obtain ⟨c, rest, hkey⟩ := List.exists_cons_of_ne_nil (l := pair.1.toList) (by simpa using key.1)
  have hc : Text.isBlank c = false := not_isBlank_of_isKeyChar (key.2 c (hkey ▸ List.mem_cons_self))
  have hblank : (pair.1.toList ++ '=' :: pair.2.toList).dropWhile Text.isBlank =
      pair.1.toList ++ '=' :: pair.2.toList := by
    rw [hkey, List.cons_append, List.dropWhile_cons_of_neg (by simp [hc])]
  rw [hblank, takeWhile_append_eq key.2 rfl, dropWhile_append_eq key.2 rfl,
    if_neg (by simp [key.1])] at h
  obtain ⟨found, -, hrest⟩ := Option.bind_eq_some_iff.mp h
  obtain ⟨others, -, rfl⟩ := Option.map_eq_some_iff.mp hrest
  exact ⟨_, others, by rw [String.ofList_toList]⟩

theorem extent_eq_length_spellPlainly (hne : pairs ≠ []) :
    extent pairs = (spellPlainly pairs).toList.length + 1 := by
  rw [toList_spellPlainly]
  induction pairs with
  | nil => exact absurd rfl hne
  | cons pair pairs ih =>
    rw [extent]
    cases pairs with
    | nil => simp [extent, String.length_toList]; omega
    | cons other pairs =>
      simp only [List.map_cons, List.intercalate_cons_cons] at ih ⊢
      rw [ih (List.cons_ne_nil other pairs)]
      simp [String.length_toList]
      omega

/-- What is said of a parameter stands in some word. -/
theorem mem_of_said? {key value : String} {read : List (String × String)}
    (hread : words? connectionString.toList = some read)
    (h : said? connectionString key = some value) : (key, value) ∈ read := by
  rw [said?, hread, Option.bind_some] at h
  obtain ⟨front, back, heq, -⟩ := List.lookup_eq_some_iff.mp h
  exact List.mem_reverse.mp (heq ▸ by simp)

/-- The only word for a parameter counts. -/
theorem lookup_reverse_of_mem (distinct : (pairs.map Prod.fst).Nodup) (hmem : pair ∈ pairs) :
    pairs.reverse.lookup pair.1 = some pair.2 := by
  obtain ⟨front, back, heq⟩ := List.append_of_mem (List.mem_reverse.mpr hmem)
  have hdistinct : (pairs.reverse.map Prod.fst).Nodup := by
    rw [List.map_reverse]
    exact List.nodup_reverse.mpr distinct
  rw [heq, List.map_append, List.map_cons, List.nodup_append] at hdistinct
  refine List.lookup_eq_some_iff.mpr ⟨front, back, heq, fun other hother => ?_⟩
  have hne := hdistinct.2.2 other.1 (List.mem_map_of_mem hother) pair.1 List.mem_cons_self
  simpa using hne.symm

/-- Values that are written as they are are read back exactly if all of them are plain. -/
theorem said?_spellPlainly_iff (keys : ∀ pair ∈ pairs, IsKey pair.1)
    (distinct : (pairs.map Prod.fst).Nodup) :
    (∀ pair ∈ pairs, said? (spellPlainly pairs) pair.1 = some pair.2) ↔
      ∀ pair ∈ pairs, IsPlain pair.2 := by
  constructor
  · intro said pair hpair
    obtain ⟨read, hread, -⟩ := Option.bind_eq_some_iff.mp (said pair hpair)
    have subset : pairs ⊆ read := fun other hother => mem_of_said? hread (said other hother)
    -- the pairs that are read have room for nothing but the pairs that were written
    have enough := extent_le_of_subset (List.Nodup.of_map _ distinct) subset
    have length := extent_eq_length_spellPlainly (List.ne_nil_of_mem hpair)
    have front := (List.dropWhile_sublist (l := (spellPlainly pairs).toList)
      Text.isBlank).length_le
    rcases extent_le_or_isPlain hread with less | ⟨-, plain⟩
    · omega
    · exact plain pair (subset hpair)
  · intro plain pair hpair
    rw [said?, words?_spellPlainly keys plain, Option.bind_some]
    exact lookup_reverse_of_mem distinct hpair

end

end Connection

end QueryTelemetry
