import QueryTelemetry.Proofs.Redaction.Idempotence
import QueryTelemetry.Proofs.Redaction.Origin
import QueryTelemetry.Proofs.Splitting

/-!
# Mentioned tables and commands

The commands of a redacted statement are its words that are commands, and its tables are the names
that come first behind a word that introduces tables, a few optional words aside (`InTablePlace`).
Both are found word by word, with a flag that says whether a table is named next. The flag stands
for what the words before end in (`expectsTable`), unless a word that introduces tables is in the
place of a table itself. And the words are found at every separator, so they are the words of the
statement unless a quoted identifier has separators in it (`mentions_of_redact`).

Both exceptions lose tables (`tables_miss_mentions`).
-/

namespace QueryTelemetry

namespace Redaction

/-! ### Words of a statement -/

/-- The parts of a text between separators that are not within quoted identifiers, empty ones
included. The flag says whether the text begins within one. -/
def splitOutside : (quoted : Bool) → List Char → List (List Char)
  | _, [] => [[]]
  | quoted, c :: rest =>
    if quoted = false ∧ separatesWords c = true then [] :: splitOutside false rest
    else
      match splitOutside (quoted ^^ c == '"') rest with
      | [] => [[c]]
      | part :: parts => (c :: part) :: parts

/-- The words of a text in which separators within quoted identifiers separate nothing. -/
def outsideWords (text : List Char) : List (List Char) :=
  (splitOutside false text).filter fun part => !part.isEmpty

/-- No separator stands within a quoted identifier. -/
def SeparatesOutside (text : List Char) : Prop :=
  ∀ front c back, text = front ++ c :: back → separatesWords c = true → front.count '"' % 2 = 0

/-! ### Mentions -/

/-- Whether tables are named behind a word. -/
def isIntroduction (word : List Char) : Bool := tableIntroductions.contains (upper word)

/-- Whether a word may stand between such a word and the name of the table. -/
def isFiller (word : List Char) : Bool := tableFillers.contains (upper word)

/-- The word, which stands behind the words `before`, is the first one behind a word that introduces
tables, fillers aside. -/
def InTablePlace (before : List (List Char)) (word : List Char) : Prop :=
  isFiller word = false ∧ ∃ earlier introduction fillers,
    before = earlier ++ introduction :: fillers ∧ isIntroduction introduction = true ∧
      ∀ filler ∈ fillers, isFiller filler = true

/-- Whether words end in one that introduces tables, fillers aside. -/
def expectsTable (before : List (List Char)) : Bool :=
  (before.reverse.dropWhile isFiller).head?.any isIntroduction

variable {before rest : List (List Char)} {word text : List Char} {quoted named : Bool}
  {c : Char}

theorem isFiller_eq_false_of_isIntroduction (h : isIntroduction word = true) :
    isFiller word = false := by
  have hdisjoint : ∀ keyword ∈ tableIntroductions, tableFillers.contains keyword = false := by
    decide
  exact hdisjoint _ (List.contains_iff_mem.mp h)

theorem expectsTable_iff : expectsTable before = true ↔ ∃ earlier introduction fillers,
    before = earlier ++ introduction :: fillers ∧ isIntroduction introduction = true ∧
      ∀ filler ∈ fillers, isFiller filler = true := by
  constructor
  · intro h
    cases hrest : before.reverse.dropWhile isFiller with
    | nil =>
      rw [expectsTable, hrest] at h
      cases h
    | cons introduction earlier =>
      rw [expectsTable, hrest] at h
      refine ⟨earlier.reverse, introduction, (before.reverse.takeWhile isFiller).reverse, ?_, h, ?_⟩
      · rw [← List.reverse_inj, List.reverse_append, List.reverse_cons, List.reverse_reverse,
          List.reverse_reverse, List.append_assoc, List.singleton_append, ← hrest,
          List.takeWhile_append_dropWhile]
      · intro filler hfiller
        exact List.all_eq_true.mp List.all_takeWhile filler (List.mem_reverse.mp hfiller)
  · rintro ⟨earlier, introduction, fillers, rfl, hintroduction, hfillers⟩
    have hreversed : ∀ filler ∈ fillers.reverse, isFiller filler = true :=
      fun filler hfiller => hfillers filler (List.mem_reverse.mp hfiller)
    have hhead : ¬ isFiller introduction = true := by
      rw [isFiller_eq_false_of_isIntroduction hintroduction]
      exact Bool.false_ne_true
    rw [expectsTable, List.reverse_append, List.reverse_cons, List.append_assoc,
      List.singleton_append, List.dropWhile_append_of_pos hreversed,
      List.dropWhile_cons_of_neg hhead]
    exact hintroduction

theorem inTablePlace_iff :
    InTablePlace before word ↔ isFiller word = false ∧ expectsTable before = true := by
  rw [InTablePlace, expectsTable_iff]

instance (before : List (List Char)) (word : List Char) : Decidable (InTablePlace before word) :=
  decidable_of_iff _ inTablePlace_iff.symm

/-- The words that name tables, as often as they do. The words `before` stand in front of them. -/
def tableMentionsFrom (before : List (List Char)) : List (List Char) → List (List Char)
  | [] => []
  | word :: rest =>
    if InTablePlace before word ∧ isTableName word = true then
      word :: tableMentionsFrom (before ++ [word]) rest
    else tableMentionsFrom (before ++ [word]) rest

/-- The words that name tables, as often as they do. -/
def tableMentions (words : List (List Char)) : List (List Char) := tableMentionsFrom [] words

/-- The words that are commands, in upper case and as often as they come up. -/
def commandMentions (words : List (List Char)) : List (List Char) :=
  (words.map upper).filter commandWords.contains

/-- The values of a list, each of them once, in the order in which they come up first. -/
structure FirstOccurrences {α : Type} [BEq α] (items distinct : List α) : Prop where
  mem_iff : ∀ item, item ∈ distinct ↔ item ∈ items
  ordered : distinct.Pairwise fun item item' => items.idxOf item < items.idxOf item'

/-! ### First occurrences -/

section FirstOccurrences

variable {α : Type} [BEq α] [LawfulBEq α] {items : List α} {item item' : α}

/-- What comes up first among some of the values comes up first among all of them. -/
theorem idxOf_lt_of_idxOf_filter_lt {p : α → Bool}
    (h : (items.filter p).idxOf item < (items.filter p).idxOf item') (hitem : p item = true)
    (hitem' : p item' = true) : items.idxOf item < items.idxOf item' := by
  induction items with
  | nil => exact h
  | cons head items ih =>
    cases hhead : p head with
    | true =>
      rw [List.filter_cons_of_pos hhead, List.idxOf_cons, List.idxOf_cons] at h
      rw [List.idxOf_cons, List.idxOf_cons]
      cases hfirst : head == item <;> cases hsecond : head == item' <;> simp_all
    | false =>
      rw [List.filter_cons_of_neg (by simp [hhead])] at h
      have hne : ∀ other, p other = true → (head == other) = false := by
        intro other hother
        rw [beq_eq_false_iff_ne]
        rintro rfl
        rw [hhead] at hother
        cases hother
      rw [List.idxOf_cons, List.idxOf_cons, hne item hitem, hne item' hitem']
      exact Nat.succ_lt_succ (ih h)

theorem firstOccurrences_eraseDups (items : List α) : FirstOccurrences items items.eraseDups := by
  refine ⟨fun item => List.mem_eraseDups, ?_⟩
  induction hn : items.length using Nat.strongRecOn generalizing items with
  | _ n ih =>
    subst hn
    cases items with
    | nil => exact .nil
    | cons head items =>
      have hshorter : (items.filter fun item => !item == head).length < (head :: items).length :=
        Nat.lt_succ_of_le (List.length_filter_le _ items)
      have hother : ∀ item ∈ (items.filter fun item => !item == head).eraseDups,
          (!item == head) = true := by
        intro item hitem
        exact (List.mem_filter.mp (List.mem_eraseDups.mp hitem)).2
      have hbehind : ∀ item, (!item == head) = true → (head == item) = false := by
        intro item hitem
        rw [beq_eq_false_iff_ne]
        rintro rfl
        simp at hitem
      rw [List.eraseDups_cons, List.pairwise_cons]
      refine ⟨?_, ?_⟩
      · intro item hitem
        rw [List.idxOf_cons_self, List.idxOf_cons, hbehind item (hother item hitem)]
        exact Nat.succ_pos _
      · refine (ih _ hshorter _ rfl).imp_of_mem ?_
        intro item item' hitem hitem' hlt
        have hlater := idxOf_lt_of_idxOf_filter_lt hlt (hother item hitem) (hother item' hitem')
        rw [List.idxOf_cons, List.idxOf_cons, hbehind item (hother item hitem),
          hbehind item' (hother item' hitem')]
        exact Nat.succ_lt_succ hlater

end FirstOccurrences

/-! ### Words are found at every separator -/

/-- The words of a text are the one at its front, unless a separator stands there, and those behind
it. -/
theorem wordsBy_eq (separates : Char → Bool) (text : List Char) :
    Text.wordsBy separates text =
      [text.takeWhile fun c => !separates c].filter (fun part => !part.isEmpty) ++
        Text.wordsBy separates (text.dropWhile fun c => !separates c) := by
  cases text with
  | nil => rfl
  | cons c rest =>
    cases hc : separates c with
    | true => simp [hc]
    | false =>
      rw [Text.wordsBy]
      simp [hc]

/-- Without separators within quoted identifiers the parts of a text begin with what stands in front
of its first separator, and the others are its further words. -/
theorem exists_splitOutside
    (h : ∀ front c back, text = front ++ c :: back → separatesWords c = true →
      (quoted ^^ decide (front.count '"' % 2 = 1)) = false) :
    ∃ parts, splitOutside quoted text = (text.takeWhile fun c => !separatesWords c) :: parts ∧
      parts.filter (fun part => !part.isEmpty) =
        Text.wordsBy separatesWords (text.dropWhile fun c => !separatesWords c) := by
  induction text generalizing quoted with
  | nil => exact ⟨[], rfl, by simp [Text.wordsBy]⟩
  | cons c rest ih =>
    have hrest : ∀ front d back, rest = front ++ d :: back → separatesWords d = true →
        ((quoted ^^ c == '"') ^^ decide (front.count '"' % 2 = 1)) = false := by
      intro front d back hsplit hd
      have hparity := h (c :: front) d back (by rw [hsplit, List.cons_append]) hd
      rw [List.count_cons] at hparity
      cases hquote : c == '"' with
      | false => simpa [hquote] using hparity
      | true =>
        rw [hquote, if_pos rfl] at hparity
        rcases Nat.mod_two_eq_zero_or_one (front.count '"') with even | odd
        · have hodd : (front.count '"' + 1) % 2 = 1 := by omega
          simpa [even, hodd] using hparity
        · have heven : (front.count '"' + 1) % 2 = 0 := by omega
          simpa [odd, heven] using hparity
    obtain ⟨parts, hparts, hwords⟩ := ih hrest
    cases hc : separatesWords c with
    | true =>
      have hout : quoted = false := by simpa using h [] c rest rfl hc
      have hquote : (c == '"') = false := by
        rw [beq_eq_false_iff_ne]
        rintro rfl
        cases hc
      rw [hout, hquote] at hparts
      refine ⟨splitOutside false rest, ?_, ?_⟩
      · rw [splitOutside, if_pos ⟨hout, hc⟩, List.takeWhile_cons_of_neg (by simp [hc])]
      · rw [List.dropWhile_cons_of_neg (by simp [hc]), Text.wordsBy, if_pos hc,
          wordsBy_eq separatesWords rest, ← hwords]
        have hparts : splitOutside false rest =
            [rest.takeWhile fun c => !separatesWords c] ++ parts := hparts
        rw [hparts, List.filter_append]
    | false =>
      refine ⟨parts, ?_, ?_⟩
      · rw [splitOutside, if_neg (by simp [hc]), hparts,
          List.takeWhile_cons_of_pos (by simp [hc])]
      · rw [List.dropWhile_cons_of_pos (by simp [hc]), hwords]

/-- Without separators within quoted identifiers the words that are found are those of the text. -/
theorem words_eq_outsideWords (h : SeparatesOutside text) : words text = outsideWords text := by
  have hparity : ∀ front c back, text = front ++ c :: back → separatesWords c = true →
      (false ^^ decide (front.count '"' % 2 = 1)) = false := by
    intro front c back hsplit hc
    simp [h front c back hsplit hc]
  obtain ⟨parts, hparts, hwords⟩ := exists_splitOutside hparity
  rw [words, wordsBy_eq, ← hwords, outsideWords, hparts, ← List.filter_append]
  rfl

/-- A word that is found is not empty and has no separators in it. -/
theorem of_mem_words (h : word ∈ words text) :
    word ≠ [] ∧ ∀ c ∈ word, separatesWords c = false := by
  rw [words] at h
  fun_induction Text.wordsBy separatesWords text with
  | case1 => cases h
  | case2 c rest _ ih => exact ih h
  | case3 c rest hc ih =>
    rcases List.mem_cons.mp h with rfl | h
    · refine ⟨List.cons_ne_nil _ _, ?_⟩
      intro d hd
      rcases List.mem_cons.mp hd with rfl | hd
      · simpa using hc
      · have := List.all_eq_true.mp List.all_takeWhile d hd
        simpa using this
    · exact ih h

/-! ### The flag stands for the words before -/

/-- Behind another word than a filler what is expected depends on that word only. -/
theorem expectsTable_concat : expectsTable (before ++ [word]) =
    if isFiller word = true then expectsTable before else isIntroduction word := by
  rw [expectsTable, List.reverse_append, List.reverse_singleton, List.singleton_append]
  split
  · rename_i hfiller
    rw [List.dropWhile_cons_of_pos hfiller, expectsTable]
  · rename_i hfiller
    rw [List.dropWhile_cons_of_neg hfiller]
    rfl

/-- Where the flag stands for the words before, the names of tables are found, unless a word that
introduces tables is in the place of a table. -/
theorem tableWords_eq_tableMentionsFrom
    (h : ∀ front word back, rest = front ++ word :: back → InTablePlace (before ++ front) word →
      isIntroduction word = false) :
    tableWords (expectsTable before) rest = tableMentionsFrom before rest := by
  induction rest generalizing before with
  | nil => cases expectsTable before <;> rfl
  | cons word rest ih =>
    have hbehind : ∀ front other back, rest = front ++ other :: back →
        InTablePlace (before ++ [word] ++ front) other → isIntroduction other = false := by
      intro front other back hsplit hplace
      refine h (word :: front) other back (by rw [hsplit, List.cons_append]) ?_
      rwa [List.append_assoc, List.singleton_append] at hplace
    have hrest := ih hbehind
    have hword := h [] word rest rfl
    rw [List.append_nil, inTablePlace_iff] at hword
    rw [expectsTable_concat] at hrest
    simp only [tableMentionsFrom, inTablePlace_iff, ← hrest]
    have hfiller : tableFillers.contains (upper word) = isFiller word := rfl
    have hintroduction : tableIntroductions.contains (upper word) = isIntroduction word := rfl
    cases hexpects : expectsTable before with
    | false =>
      rw [tableWords, hintroduction, if_neg (by simp)]
      split
      · rename_i hskipped
        cases hopens : isIntroduction word with
        | false => rfl
        | true =>
          rw [isFiller_eq_false_of_isIntroduction hopens] at hskipped
          cases hskipped
      · rfl
    | true =>
      rw [tableWords, hfiller]
      cases hskipped : isFiller word with
      | true => simp
      | false => simp [hword ⟨hskipped, hexpects⟩]

theorem tableWords_eq_tableMentions {words : List (List Char)}
    (h : ∀ before word after, words = before ++ word :: after → InTablePlace before word →
      isIntroduction word = false) : tableWords false words = tableMentions words := by
  have hstart : expectsTable [] = false := rfl
  rw [← hstart, tableWords_eq_tableMentionsFrom h]
  rfl

theorem mem_of_mem_tableWords {words : List (List Char)} (h : word ∈ tableWords named words) :
    word ∈ words := by
  induction words generalizing named with
  | nil => cases named <;> cases h
  | cons other rest ih =>
    cases named with
    | false => exact List.mem_cons_of_mem other (ih h)
    | true =>
      rw [tableWords] at h
      split at h
      · exact List.mem_cons_of_mem other (ih h)
      · split at h
        · rcases List.mem_cons.mp h with rfl | h
          · exact List.mem_cons_self
          · exact List.mem_cons_of_mem other (ih h)
        · exact List.mem_cons_of_mem other (ih h)

/-! ### The list of tables is read back -/

theorem trim_eq_self (h : ∀ c ∈ text, Text.isBlank c = false) : Text.trim text = text := by
  have hhead : text.head?.any Text.isBlank = false := by
    cases hfirst : text.head? with
    | none => rfl
    | some c => exact h c (List.mem_of_head? hfirst)
  have hlast : text.getLast?.any Text.isBlank = false := by
    cases hfinal : text.getLast? with
    | none => rfl
    | some c => exact h c (List.mem_of_getLast? hfinal)
  rw [Text.trim, dropWhile_eq_self hhead, trimEnd_eq_self hlast]

/-- Blanks separate words. -/
theorem isBlank_eq_false (h : separatesWords c = false) : Text.isBlank c = false := by
  rw [← Bool.not_eq_true]
  intro hblank
  rw [separatesWords, hblank] at h
  cases h

/-- Names without separators in them are read back from their list, and none from the list of no
names. -/
theorem readTables?_intercalate {names : List (List Char)}
    (h : ∀ name ∈ names, name ≠ [] ∧ ∀ c ∈ name, separatesWords c = false) :
    Mentions.readTables? (",".intercalate (names.map String.ofList)) =
      if names = [] then none else some (names.map String.ofList) := by
  cases names with
  | nil => decide
  | cons name names =>
    have hparts : Text.splitAt ',' (",".intercalate ((name :: names).map String.ofList)).toList =
        name :: names := by
      have hcomma : ∀ part ∈ name :: names, ',' ∉ part := by
        intro part hpart hmem
        cases (h part hpart).2 ',' hmem
      rw [String.toList_intercalate, List.map_map]
      have hself : (name :: names).map (String.toList ∘ String.ofList) = name :: names := by
        simp [Function.comp_def]
      rw [hself]
      exact Text.splitAt_intercalate (List.cons_ne_nil name names) hcomma
    have htrim : (name :: names).map Text.trim = name :: names := by
      refine (List.map_congr_left fun part hpart => ?_).trans (List.map_id _)
      exact trim_eq_self fun c hc => isBlank_eq_false ((h part hpart).2 c hc)
    have hfilter : (name :: names).filter (fun part => !part.isEmpty) = name :: names := by
      refine List.filter_eq_self.mpr fun part hpart => ?_
      simpa using (h part hpart).1
    rw [Mentions.readTables?, hparts, htrim, hfilter, if_neg (List.cons_ne_nil name names)]
    rfl

variable {document statement : String} {options : Options} {redacted : Redacted}

/-- The commands and tables of a redacted statement are collected from its text. -/
theorem mentions_eq_of_redact (hoptions : Options.parse? document = some options)
    (h : redact document statement = .ok redacted) :
    redacted.mentions = {
      tableList :=
        if options.collectTables then
          ",".intercalate ((tables redacted.text.toList).map String.ofList)
        else ""
      commands :=
        if options.collectCommands then
          (commands redacted.text.toList).map String.ofList
        else [] } := by
  simp only [redact, hoptions, redactWith] at h
  split at h
  · cases h
  · cases h
  · obtain rfl := Except.ok.inj h
    rw [String.toList_ofList]

/-- The tables are read back from their list, unless none are collected. -/
theorem tables?_eq_of_redact (hoptions : Options.parse? document = some options)
    (hcollect : options.collectTables = true) (h : redact document statement = .ok redacted) :
    redacted.mentions.tables? =
      if tables redacted.text.toList = [] then none
      else some ((tables redacted.text.toList).map String.ofList) := by
  rw [mentions_eq_of_redact hoptions h, Mentions.tables?]
  simp only [hcollect, if_true]
  refine readTables?_intercalate fun name hname => ?_
  exact of_mem_words (mem_of_mem_tableWords (List.mem_eraseDups.mp hname))

/-- The tables that are read back, none included. -/
theorem tables?_of_redact (hoptions : Options.parse? document = some options)
    (hcollect : options.collectTables = true) (h : redact document statement = .ok redacted) :
    redacted.mentions.tables?.getD [] = (tables redacted.text.toList).map String.ofList := by
  rw [tables?_eq_of_redact hoptions hcollect h]
  split
  · rename_i hnone
    rw [hnone]
    rfl
  · rfl

/-- The commands and tables of a redacted statement are the ones that its words name, each of them
once and in the order in which they come up first. For this no quoted identifier may have separators
in it, and for the tables no word that introduces tables may be in the place of one. -/
theorem mentions_of_redact (document statement : String) (options : Options) (redacted : Redacted)
    (hoptions : Options.parse? document = some options)
    (h : redact document statement = .ok redacted)
    (houtside : SeparatesOutside redacted.text.toList) :
    (options.collectCommands = true →
      FirstOccurrences (commandMentions (outsideWords redacted.text.toList))
        (redacted.mentions.commands.map String.toList)) ∧
      (options.collectTables = true →
        (∀ before word after, outsideWords redacted.text.toList = before ++ word :: after →
          InTablePlace before word → isIntroduction word = false) →
        redacted.mentions.tableList = ",".intercalate (redacted.mentions.tables?.getD []) ∧
          FirstOccurrences (tableMentions (outsideWords redacted.text.toList))
            ((redacted.mentions.tables?.getD []).map String.toList)) := by
  have hlists : ∀ names : List (List Char),
      (names.map String.ofList).map String.toList = names := by
    intro names
    simp [Function.comp_def]
  have hmentions := mentions_eq_of_redact hoptions h
  rw [← words_eq_outsideWords houtside]
  refine ⟨fun hcollect => ?_, fun hcollect hplaces => ?_⟩
  · rw [hmentions]
    simp only [hcollect, if_true]
    rw [hlists]
    exact firstOccurrences_eraseDups _
  · rw [tables?_of_redact hoptions hcollect h, hmentions, hlists]
    refine ⟨if_pos hcollect, ?_⟩
    rw [tables, tableWords_eq_tableMentions hplaces]
    exact firstOccurrences_eraseDups _

/-- What holds at each place of a list holds wherever the list is split. -/
theorem forall_split_of_forall_drop {α : Type} {items : List α} {p : List α → α → Bool}
    (h : ∀ n < items.length, (items.drop n).head?.all (p (items.take n)) = true)
    {front back : List α} {item : α} (hsplit : items = front ++ item :: back) :
    p front item = true := by
  have hplace := h front.length (by rw [hsplit]; simp)
  rw [hsplit, List.drop_left, List.take_left] at hplace
  exact hplace

theorem SeparatesOutside.of_forall_drop
    (h : ∀ n < text.length, (text.drop n).head?.all (fun c =>
      !separatesWords c || (text.take n).count '"' % 2 == 0) = true) : SeparatesOutside text := by
  intro front c back hsplit hc
  have hplace := @forall_split_of_forall_drop _ text
    (fun front c => !separatesWords c || front.count '"' % 2 == 0) h _ _ _ hsplit
  simpa [hc] using hplace

/-- Of the words of `UPDATE ONLY "t" SET a = 1 FROM t, "t"` the first is the only command, and two
name tables. -/
theorem mentions_of_redact_update :
    ∃ redacted, redact "" "UPDATE ONLY \"t\" SET a = 1 FROM t, \"t\"" = .ok redacted ∧
      SeparatesOutside redacted.text.toList ∧
      Options.default.collectCommands = true ∧ Options.default.collectTables = true ∧
      (∀ before word after, outsideWords redacted.text.toList = before ++ word :: after →
        InTablePlace before word → isIntroduction word = false) ∧
      FirstOccurrences ["UPDATE".toList] (redacted.mentions.commands.map String.toList) ∧
      redacted.mentions.tableList = ",".intercalate (redacted.mentions.tables?.getD []) ∧
      FirstOccurrences ["\"t\"".toList, "t".toList]
        ((redacted.mentions.tables?.getD []).map String.toList) := by
  have hstrip : strip false "UPDATE ONLY \"t\" SET a = 1 FROM t, \"t\"".toList =
      .ok "UPDATE ONLY \"t\" SET a = ? FROM t, \"t\"".toList :=
    strip_eq_of_place? 33 "\"t\" ,t MORF ? = a TES \"t\" YLNO ETADPU".toList (by decide) (by decide)
  obtain ⟨mentions, hredact⟩ := exists_redact_of_strip (by decide) hstrip
  have houtside : SeparatesOutside "UPDATE ONLY \"t\" SET a = ? FROM t, \"t\"".toList :=
    .of_forall_drop (by decide)
  have hwords : outsideWords "UPDATE ONLY \"t\" SET a = ? FROM t, \"t\"".toList =
      ["UPDATE", "ONLY", "\"t\"", "SET", "a", "=", "?", "FROM", "t", "\"t\""].map
        String.toList := by
    decide
  have hplaces : ∀ before word after,
      outsideWords "UPDATE ONLY \"t\" SET a = ? FROM t, \"t\"".toList = before ++ word :: after →
        InTablePlace before word → isIntroduction word = false := by
    intro before word after hsplit hplace
    rw [hwords] at hsplit
    have hcheck := @forall_split_of_forall_drop _ _
      (fun before word => !decide (InTablePlace before word) || !isIntroduction word)
      (by decide) _ _ _ hsplit
    simpa [hplace] using hcheck
  obtain ⟨hcommands, htables⟩ := mentions_of_redact "" _ Options.default _ rfl hredact houtside
  obtain ⟨hlist, hnames⟩ := htables rfl hplaces
  have hcommandWords : commandMentions (outsideWords
      "UPDATE ONLY \"t\" SET a = ? FROM t, \"t\"".toList) = ["UPDATE".toList] := by
    rw [hwords]
    decide
  have htableWords : tableMentions (outsideWords
      "UPDATE ONLY \"t\" SET a = ? FROM t, \"t\"".toList) = ["\"t\"".toList, "t".toList] := by
    rw [hwords]
    decide
  rw [← hcommandWords, ← htableWords]
  exact ⟨_, hredact, houtside, rfl, rfl, hplaces, hcommands rfl, hlist, hnames⟩

/-- A name with a blank in it and a name behind two words that introduce tables are not
collected. -/
theorem tables_miss_mentions :
    (∃ redacted, redact "" "SELECT * FROM \"my table\"" = .ok redacted ∧
      "\"my table\"".toList ∈ tableMentions (outsideWords redacted.text.toList) ∧
      "\"my table\"" ∉ redacted.mentions.tables?.getD []) ∧
    ∃ redacted, redact "" "SELECT * INTO TABLE newtab FROM films" = .ok redacted ∧
      "newtab".toList ∈ tableMentions (outsideWords redacted.text.toList) ∧
      "newtab" ∉ redacted.mentions.tables?.getD [] := by
  have hoptions : Options.parse? "" = some Options.default := rfl
  refine ⟨?_, ?_⟩
  · have hstrip : strip false "SELECT * FROM \"my table\"".toList =
        .ok "SELECT * FROM \"my table\"".toList :=
      strip_eq_of_place? 15 "\"elbat ym\" MORF * TCELES".toList (by decide) (by decide)
    obtain ⟨mentions, hredact⟩ := exists_redact_of_strip (by decide) hstrip
    have hmention : "\"my table\"".toList ∈
        tableMentions (outsideWords "SELECT * FROM \"my table\"".toList) := by
      decide
    refine ⟨_, hredact, hmention, ?_⟩
    -- a word that is collected has no blank in it
    rw [tables?_of_redact hoptions rfl hredact]
    intro hmem
    obtain ⟨name, hname, htext⟩ := List.mem_map.mp hmem
    have hsolid := (of_mem_words (mem_of_mem_tableWords (List.mem_eraseDups.mp hname))).2
    rw [← String.toList_inj, String.toList_ofList] at htext
    cases hsolid ' ' (by rw [htext]; decide)
  · have hstrip : strip false "SELECT * INTO TABLE newtab FROM films".toList =
        .ok "SELECT * INTO TABLE newtab FROM films".toList :=
      strip_eq_of_place? 37 "smlif MORF batwen ELBAT OTNI * TCELES".toList (by decide) (by decide)
    obtain ⟨mentions, hredact⟩ := exists_redact_of_strip (by decide) hstrip
    have houtside : SeparatesOutside "SELECT * INTO TABLE newtab FROM films".toList :=
      .of_forall_drop (by decide)
    have hmention : "newtab".toList ∈
        tableMentions (outsideWords "SELECT * INTO TABLE newtab FROM films".toList) := by
      decide
    refine ⟨_, hredact, hmention, ?_⟩
    rw [tables?_of_redact hoptions rfl hredact]
    intro hmem
    obtain ⟨name, hname, htext⟩ := List.mem_map.mp hmem
    rw [← String.toList_inj, String.toList_ofList] at htext
    have hfound := List.mem_eraseDups.mp hname
    rw [words_eq_outsideWords houtside, htext] at hfound
    revert hfound
    decide

end Redaction

end QueryTelemetry
