import QueryTelemetry.Proofs.Connection.Plain
import QueryTelemetry.Proofs.Connection.Spacing

/-!
# Naming another database

`withDatabase` looks for the parts of a connection string between blanks that begin with `dbname=`,
whatever words these parts belong to. If there are none, it names the database in a word at the end.
If there are some, it replaces each of them, and puts one blank between any two parts.

In a well-formed string, a word is still read afterwards (`Word.Survives`) if it names the database
and has no blanks in it, or if none of its parts begins with `dbname=` and there are no blanks in
the spelling of its value but single ones. If all words survive, the string with a plain name for
the database is well-formed again, and every word says what it said or the new name.
-/

namespace QueryTelemetry

namespace Connection

/-! ### The words of the new string -/

theorem toList_databaseKey : databaseKey.toList = "dbname".toList ++ ['='] := by decide

/-- What becomes of a part of a string when another database is named in it. -/
def renamed (database : String) (part : List Char) : List Char :=
  if databaseKey.toList.isPrefixOf part then databaseKey.toList ++ database.toList else part

/-- Whether a part names a database. -/
def NamesDatabase (connectionString : String) : Prop :=
  ∃ part ∈ Text.wordsBy Text.isBlank connectionString.toList, databaseKey.toList <+: part

section

variable {connectionString database : String}

theorem toList_withDatabase_of_names (h : NamesDatabase connectionString) :
    (withDatabase connectionString database).toList =
      List.intercalate [' ']
        ((Text.wordsBy Text.isBlank connectionString.toList).map (renamed database)) := by
  obtain ⟨part, hpart, hnames⟩ := h
  have hany : (Text.wordsBy Text.isBlank connectionString.toList).any
      (fun part => databaseKey.toList.isPrefixOf part) = true :=
    List.any_eq_true.mpr ⟨part, hpart, List.isPrefixOf_iff_prefix.mpr hnames⟩
  rw [withDatabase]
  simp only [hany, if_true, String.toList_intercalate, List.map_map]
  refine congrArg _ (List.map_congr_left fun part _ => ?_)
  simp only [Function.comp_apply, renamed]
  split <;> simp

theorem withDatabase_of_not_names (h : ¬ NamesDatabase connectionString) :
    withDatabase connectionString database =
      connectionString ++ " " ++ databaseKey ++ database := by
  have hany : (Text.wordsBy Text.isBlank connectionString.toList).any
      (fun part => databaseKey.toList.isPrefixOf part) = false := by
    simp only [NamesDatabase, ← List.isPrefixOf_iff_prefix] at h
    simpa using h
  rw [withDatabase]
  simp [hany]

end

namespace Word

/-- Whether a word is still read when another database is named in its string. -/
inductive Survives (w : Word) : Prop
  /-- It is replaced as a whole. -/
  | replaced (names : databaseKey.toList <+: w.text)
      (not_isBlank : ∀ c ∈ w.text, Text.isBlank c = false)
  /-- It is kept, with the spelling of its value. -/
  | kept (not_names : ∀ part ∈ Text.wordsBy Text.isBlank w.text, ¬ databaseKey.toList <+: part)
      (spaced : Text.respaced w.spelling = w.spelling)

/-- What the word says when another database is named in its string. -/
def withDatabase (database : String) (w : Word) : String × String :=
  if databaseKey.toList <+: w.text then ("dbname", database) else w.pair

/-- The word with at most one blank on each side of its equals sign. -/
def tightened (w : Word) : Word where
  key := w.key
  before := Text.oneBlank w.before
  behind := Text.oneBlank w.behind
  spelling := w.spelling
  value := w.value
  key_ne_empty := w.key_ne_empty
  isKeyChar_of_mem_key := w.isKeyChar_of_mem_key
  isBlank_of_mem_before := fun _ => Text.isBlank_of_mem_oneBlank
  isBlank_of_mem_behind := fun _ => Text.isBlank_of_mem_oneBlank
  spells := w.spells

section

variable {w : Word} {database : String}

theorem respaced_text (h : Text.respaced w.spelling = w.spelling) :
    Text.respaced w.text = w.tightened.text := by
  obtain ⟨c, spelling, hspelling, hc⟩ := w.spells.exists_eq_cons
  have hbehind := Text.respaced_append (List.cons_ne_nil '=' [])
    (List.forall_mem_singleton.mpr rfl) w.isBlank_of_mem_behind hc spelling
  rw [← hspelling, h, List.singleton_append, List.singleton_append] at hbehind
  have hkey : ∀ c ∈ w.key.toList, Text.isBlank c = false := fun c hc =>
    not_isBlank_of_isKeyChar (w.isKeyChar_of_mem_key c hc)
  rw [text, List.append_assoc,
    Text.respaced_append w.key_ne_nil hkey w.isBlank_of_mem_before (by decide), hbehind, text]
  simp [tightened]

/-- A word that begins with `dbname=` says the database. -/
theorem key_of_names (h : databaseKey.toList <+: w.text) : w.key = "dbname" := by
  obtain ⟨rest, hrest⟩ := h
  have hkey : w.text.takeWhile isKeyChar = w.key.toList := by
    rw [text, List.append_assoc, takeWhile_append_eq w.isKeyChar_of_mem_key
      (w.isKeyChar_head?_behind_key (w.behind ++ w.spelling))]
  have hname : (databaseKey.toList ++ rest).takeWhile isKeyChar = "dbname".toList := rfl
  rw [hrest, hkey] at hname
  exact String.toList_inj.mp hname

/-- The first part of a word that begins with `dbname=` begins so. -/
theorem exists_part_of_names (h : databaseKey.toList <+: w.text) :
    ∃ part ∈ Text.wordsBy Text.isBlank w.text, databaseKey.toList <+: part := by
  obtain ⟨rest, hrest⟩ := h
  have hsplit : databaseKey.toList = 'd' :: "bname=".toList := by decide
  have hsolid : ∀ c ∈ "bname=".toList, (!Text.isBlank c) = true :=
    List.all_eq_true.mp (by decide)
  rw [← hrest, hsplit, List.cons_append, Text.wordsBy_cons_of_neg (by decide),
    List.takeWhile_append_of_pos hsolid]
  exact ⟨_, List.mem_cons_self, List.prefix_append _ _⟩

theorem fst_withDatabase (database : String) : (w.withDatabase database).1 = w.key := by
  rw [withDatabase]
  split
  · exact (key_of_names ‹_›).symm
  · rfl

end

end Word

/-- The last word for the database begins with `dbname=`. -/
def LastNames (words : List Word) : Prop :=
  ∃ front w back, words = front ++ w :: back ∧ databaseKey.toList <+: w.text ∧
    ∀ other ∈ back, other.key ≠ "dbname"

theorem isKey_dbname : IsKey "dbname" := by decide

section

variable {w : Word} {database : String}

/-- A word that survives is a word again, with nothing changed but the database. -/
theorem Word.Survives.exists_word (h : w.Survives) (plain : IsPlain database) :
    ∃ new : Word, new.pair = w.withDatabase database ∧
      List.intercalate [' '] ((Text.wordsBy Text.isBlank w.text).map (renamed database)) =
        new.text := by
  cases h with
  | replaced names not_isBlank =>
    obtain ⟨c, text, htext, -⟩ := w.exists_text_eq_cons
    refine ⟨.plain ("dbname", database) isKey_dbname plain, ?_, ?_⟩
    · rw [Word.withDatabase, if_pos names]
      rfl
    · rw [Text.wordsBy_of_forall (by simp [htext]) not_isBlank, List.map_singleton,
        List.intercalate_singleton, renamed, if_pos (List.isPrefixOf_iff_prefix.mpr names),
        Word.text_plain, toList_databaseKey, List.append_assoc, List.singleton_append]
  | kept not_names spaced =>
    refine ⟨w.tightened, ?_, ?_⟩
    · rw [Word.withDatabase, if_neg]
      · rfl
      · intro names
        obtain ⟨part, hpart, hprefix⟩ := Word.exists_part_of_names names
        exact not_names part hpart hprefix
    · have hsame : (Text.wordsBy Text.isBlank w.text).map (renamed database) =
          Text.wordsBy Text.isBlank w.text := by
        refine List.map_congr_left (g := id) (fun part hpart => ?_) |>.trans (List.map_id _)
        rw [renamed, if_neg (by simpa using not_names part hpart), id_eq]
      rw [hsame]
      exact w.respaced_text spaced

theorem wordsBy_of_separated {text : List Char} {words : List Word} (h : Separated text words) :
    Text.wordsBy Text.isBlank text =
      words.flatMap fun w => Text.wordsBy Text.isBlank w.text := by
  induction h with
  | nil isBlank_of_mem =>
    simpa [Text.wordsBy] using Text.wordsBy_append_of_pos isBlank_of_mem []
  | @cons blanks rest words w isBlank_of_mem ends _ ih =>
    rw [List.append_assoc, Text.wordsBy_append_of_pos isBlank_of_mem, List.flatMap_cons, ← ih]
    cases rest with
    | nil => simp [Text.wordsBy]
    | cons c rest =>
      have hc : Text.isBlank c = true := by simpa using ends
      rw [Text.wordsBy_append_cons hc, Text.wordsBy_cons_of_pos hc]

/-- If all words survive, the new string is well-formed, with the new name in the words that begin
with `dbname=`. -/
theorem separated_withDatabase_of_names {connectionString : String} {words : List Word}
    (h : Separated connectionString.toList words) (survive : ∀ w ∈ words, w.Survives)
    (names : NamesDatabase connectionString) (plain : IsPlain database) :
    ∃ new : List Word, Separated (withDatabase connectionString database).toList new ∧
      new.map Word.pair = words.map (Word.withDatabase database) := by
  have hnew : ∃ new : List Word, new.map Word.pair = words.map (Word.withDatabase database) ∧
      new.map Word.text = words.map fun w =>
        List.intercalate [' '] ((Text.wordsBy Text.isBlank w.text).map (renamed database)) := by
    clear h names
    induction words with
    | nil => exact ⟨[], rfl, rfl⟩
    | cons w words ih =>
      obtain ⟨survives, survive⟩ := List.forall_mem_cons.mp survive
      obtain ⟨word, hpair, htext⟩ := survives.exists_word plain
      obtain ⟨new, hpairs, htexts⟩ := ih survive
      exact ⟨word :: new, by simp [hpair, hpairs], by simp [htext, htexts]⟩
  obtain ⟨new, hpairs, htexts⟩ := hnew
  refine ⟨new, ?_, hpairs⟩
  rw [toList_withDatabase_of_names names, wordsBy_of_separated h, List.map_flatMap,
    intercalate_flatMap, ← htexts]
  · exact separated_intercalate new
  · intro w _
    obtain ⟨c, text, htext, hc⟩ := w.exists_text_eq_cons
    simp [htext, Text.wordsBy_cons_of_neg hc]

section

variable {connectionString : String} {words : List Word}

theorem toList_withDatabase_of_not_names (h : ¬ NamesDatabase connectionString) :
    (withDatabase connectionString database).toList =
      connectionString.toList ++ ([' '] ++ (spellPlainly [("dbname", database)]).toList) := by
  rw [withDatabase_of_not_names h, toList_spellPlainly]
  simp [toList_databaseKey]

/-- If no part names a database, the string is still well-formed with the database at its end. -/
theorem separated_withDatabase_of_not_names (h : Separated connectionString.toList words)
    (not_names : ¬ NamesDatabase connectionString) (plain : IsPlain database) :
    ∃ new : List Word, Separated (withDatabase connectionString database).toList new ∧
      new.map Word.pair = words.map Word.pair ++ [("dbname", database)] := by
  have keys : ∀ pair ∈ [("dbname", database)], IsKey pair.1 := by simp [isKey_dbname]
  obtain ⟨last, hlast, htext⟩ := exists_plain_words keys (by simp [plain])
  refine ⟨words ++ last, ?_, by rw [List.map_append, hlast]⟩
  rw [toList_withDatabase_of_not_names not_names]
  exact h.append
    ((separated_spellPlainly htext).blanks_append (List.forall_mem_singleton.mpr rfl)) rfl

/-- The database at the end of a string is read back only if its name is plain. -/
theorem isPlain_of_said?_withDatabase (h : Separated connectionString.toList words)
    (not_names : ¬ NamesDatabase connectionString)
    (said : said? (withDatabase connectionString database) "dbname" = some database) :
    IsPlain database := by
  have keys : ∀ pair ∈ [("dbname", database)], IsKey pair.1 := by simp [isKey_dbname]
  have hlast := said?_spellPlainly_iff keys (List.nodup_singleton _)
  simp only [List.forall_mem_singleton] at hlast
  refine hlast.mp ?_
  rw [said?, toList_withDatabase_of_not_names not_names, words?_append h rfl,
    words?_blanks_append (List.forall_mem_singleton.mpr rfl)] at said
  rw [said?]
  cases hread : words? (spellPlainly [("dbname", database)]).toList with
  | none => simp [hread] at said
  | some read =>
    obtain ⟨value, others, rfl⟩ := exists_of_words?_spellPlainly isKey_dbname hread
    rw [hread, Option.map_some, Option.bind_some, List.reverse_append, List.lookup_append] at said
    rw [Option.bind_some]
    -- whatever is read of the name, the words behind `dbname=` say a database, and they come last
    have hsome : (List.lookup "dbname" (("dbname", value) :: others).reverse).isSome := by
      rw [List.reverse_cons, List.lookup_append]
      simp
    rwa [Option.or_of_isSome hsome] at said

end

/-! ### Strings of plain values -/

/-- A parameter with the database in place of what it says, if it says the database. -/
def setDatabase (database : String) (pair : String × String) : String × String :=
  if pair.1 = "dbname" then ("dbname", database) else pair

theorem setDatabase_of_eq {database : String} {pair : String × String} (h : pair.1 = "dbname") :
    setDatabase database pair = ("dbname", database) := if_pos h

theorem setDatabase_of_ne {database : String} {pair : String × String} (h : pair.1 ≠ "dbname") :
    setDatabase database pair = pair := if_neg h

theorem fst_setDatabase (database : String) (pair : String × String) :
    (setDatabase database pair).1 = pair.1 := by
  rw [setDatabase]
  split
  · exact Eq.symm ‹_›
  · rfl

theorem filter_map_setDatabase (database : String) (old : List (String × String)) :
    ((old.map (setDatabase database)).filter fun pair => pair.1 ≠ "dbname") =
      old.filter fun pair => pair.1 ≠ "dbname" := by
  induction old with
  | nil => rfl
  | cons pair old ih =>
    rw [List.map_cons, List.filter_cons, List.filter_cons, ih, setDatabase]
    by_cases h : pair.1 = "dbname" <;> simp [h]

section

variable {pairs : List (String × String)}

theorem wordsBy_spellPlainly (keys : ∀ pair ∈ pairs, IsKey pair.1)
    (plain : ∀ pair ∈ pairs, IsPlain pair.2) :
    Text.wordsBy Text.isBlank (spellPlainly pairs).toList =
      pairs.map fun pair => pair.1.toList ++ '=' :: pair.2.toList := by
  obtain ⟨words, -, htexts⟩ := exists_plain_words keys plain
  rw [wordsBy_of_separated (separated_spellPlainly htexts), ← List.flatMap_map, htexts,
    List.flatMap_map, ← List.flatMap_singleton' (pairs.map _), List.flatMap_map]
  refine List.flatMap_congr fun pair hpair => ?_
  have solid := Word.not_isBlank_plain (keys pair hpair) (plain pair hpair)
  rw [Word.text_plain] at solid
  exact Text.wordsBy_of_forall (by simp) solid

theorem renamed_plain {pair : String × String} (key : IsKey pair.1) (value : IsPlain pair.2) :
    renamed database (pair.1.toList ++ '=' :: pair.2.toList) =
      (setDatabase database pair).1.toList ++ '=' :: (setDatabase database pair).2.toList := by
  have hnames : databaseKey.toList <+: pair.1.toList ++ '=' :: pair.2.toList ↔
      pair.1 = "dbname" := by
    refine ⟨fun names => ?_, fun hkey => ⟨pair.2.toList, ?_⟩⟩
    · rw [← Word.text_plain key value] at names
      exact Word.key_of_names names
    · rw [hkey, toList_databaseKey, List.append_assoc, List.singleton_append]
  rw [renamed, setDatabase]
  simp only [List.isPrefixOf_iff_prefix, hnames]
  split
  · rw [toList_databaseKey, List.append_assoc, List.singleton_append]
  · rfl

/-- In a string of plain values, the database is replaced, whatever its name. -/
theorem withDatabase_spellPlainly (keys : ∀ pair ∈ pairs, IsKey pair.1)
    (plain : ∀ pair ∈ pairs, IsPlain pair.2) (h : "dbname" ∈ pairs.map Prod.fst) :
    withDatabase (spellPlainly pairs) database =
      spellPlainly (pairs.map (setDatabase database)) := by
  have names : NamesDatabase (spellPlainly pairs) := by
    obtain ⟨pair, hpair, hkey⟩ := List.mem_map.mp h
    refine ⟨_, by rw [wordsBy_spellPlainly keys plain]; exact List.mem_map_of_mem hpair,
      pair.2.toList, ?_⟩
    rw [hkey, toList_databaseKey, List.append_assoc, List.singleton_append]
  refine String.toList_inj.mp ?_
  rw [toList_withDatabase_of_names names, wordsBy_spellPlainly keys plain, toList_spellPlainly,
    List.map_map, List.map_map]
  exact congrArg _ (List.map_congr_left fun pair hpair =>
    renamed_plain (keys pair hpair) (plain pair hpair))

end

end

end Connection

end QueryTelemetry
