import QueryTelemetry.Catalog
import QueryTelemetry.Proofs.Runs
import QueryTelemetry.Proofs.Searching
import QueryTelemetry.Settings

/-!
# The parts of a query

A query over the view consists of parts that begin with a blank (`toList_statisticsQuery`), some of
them fixed and some put in. So a word without blanks is in the query only if one of the parts holds
it. A word that is in none but the name of the view is foreign to the query
(`IsForeign.not_isInfix_statisticsQuery`). The list of columns stands at the beginning
(`exists_toList_selection`) and the limit at the end (`exists_toList_limit`).
-/

namespace QueryTelemetry

namespace Catalog

variable {word : List Char} {columns view filters : String} {names : List String} {limit : Nat}

/-! ### The text of a query over the view -/

/-- The words by which queries are known that have nothing to do with the rows of the view. -/
def telltales : List String := ["pg_settings", "COUNT(*)"]

/-- What stands in every query over the view. Where something is put in, the blank before it is left
out. -/
def fixedParts : List String :=
  ["\n            SELECT", "\n              FROM", " as pg_stat_statements",
    "\n              LEFT JOIN pg_roles",
    "\n                     ON pg_stat_statements.userid = pg_roles.oid",
    "\n              LEFT JOIN pg_database",
    "\n                     ON pg_stat_statements.dbid = pg_database.oid",
    "\n              WHERE query != '<insufficient privilege>'",
    "\n              AND query NOT LIKE 'EXPLAIN %'", "\n             ", "\n              LIMIT",
    "\n        "]

/-- Each fixed part begins with a blank, and none holds a word by which queries are known. -/
theorem of_mem_fixedParts : ∀ part ∈ fixedParts,
    (part.toList.head? = some ' ' ∨ part.toList.head? = some '\n') ∧
      ∀ word ∈ telltales, Text.occursIn word.toList part.toList = false :=
  Text.forall_toList (P := fun part => (part.head? = some ' ' ∨ part.head? = some '\n') ∧
    ∀ word ∈ telltales, Text.occursIn word.toList part = false)
    [_, _, _, _, _, _, _, _, _, _, _, _] rfl (by decide +kernel)

/-- The parts of a query over the view. Each begins with a blank. -/
def partsOf (columns view filters : String) (limit : Nat) : List (List Char) :=
  ["\n            SELECT".toList, ' ' :: columns.toList, "\n              FROM".toList,
    ' ' :: view.toList, " as pg_stat_statements".toList,
    "\n              LEFT JOIN pg_roles".toList,
    "\n                     ON pg_stat_statements.userid = pg_roles.oid".toList,
    "\n              LEFT JOIN pg_database".toList,
    "\n                     ON pg_stat_statements.dbid = pg_database.oid".toList,
    "\n              WHERE query != '<insufficient privilege>'".toList,
    "\n              AND query NOT LIKE 'EXPLAIN %'".toList, "\n             ".toList,
    ' ' :: filters.toList, "\n              LIMIT".toList, ' ' :: Nat.toDigits 10 limit,
    "\n        ".toList]

theorem toList_statisticsQuery (columns view filters : String) (limit : Nat) :
    (statisticsQuery columns view filters limit).toList =
      (partsOf columns view filters limit).flatten := by
  have hblank : " ".toList = [' '] := rfl
  have hselect : "\n            SELECT ".toList = "\n            SELECT".toList ++ " ".toList :=
    Text.toList_eq_append rfl rfl rfl
  have hfrom : "\n              FROM ".toList = "\n              FROM".toList ++ " ".toList :=
    Text.toList_eq_append rfl rfl rfl
  have hfilters : "\n              ".toList = "\n             ".toList ++ " ".toList :=
    Text.toList_eq_append rfl rfl rfl
  have hlimit : "\n              LIMIT ".toList = "\n              LIMIT".toList ++ " ".toList :=
    Text.toList_eq_append rfl rfl rfl
  unfold statisticsQuery partsOf
  simp only [String.toList_append, Nat.toString_eq_repr, Nat.toList_repr, hselect, hfrom, hfilters,
    hlimit, hblank, List.flatten_cons, List.flatten_nil, List.append_assoc, List.append_nil,
    List.cons_append, List.nil_append]

/-- The name of the view stands in a query over it. -/
theorem isInfix_view_statisticsQuery (columns view filters : String) (limit : Nat) :
    view.toList <:+: (statisticsQuery columns view filters limit).toList := by
  have hmem : ' ' :: view.toList ∈ partsOf columns view filters limit := by simp [partsOf]
  rw [toList_statisticsQuery]
  exact (List.suffix_cons ' ' _).isInfix.trans (List.infix_of_mem_flatten hmem)

/-- What holds for the fixed parts and for those that are put in holds for all parts. -/
theorem forall_mem_partsOf {P : List Char → Prop}
    (hfixed : ∀ fixed ∈ fixedParts, P fixed.toList)
    (hinserted : ∀ inserted ∈ [columns.toList, view.toList, filters.toList, Nat.toDigits 10 limit],
      P (' ' :: inserted)) :
    ∀ part ∈ partsOf columns view filters limit, P part := by
  simp only [fixedParts, partsOf, List.forall_mem_cons] at hfixed hinserted ⊢
  obtain ⟨hselect, hfrom, hname, hroles, honRole, hdatabases, honDatabase, hhidden, hplans, hand,
    hlimit, hend, hnone⟩ := hfixed
  obtain ⟨hcolumns, hview, hfilters, hdigits, -⟩ := hinserted
  exact ⟨hselect, hcolumns, hfrom, hview, hname, hroles, honRole, hdatabases, honDatabase, hhidden,
    hplans, hand, hfilters, hlimit, hdigits, hend, nofun⟩

/-- The lines of a query are indented by blanks. -/
theorem all_isBlank_of_mem_indents :
    ∀ indent ∈ ["\n        ", "\n            ", "\n              "],
      indent.toList.all Text.isBlank = true :=
  Text.forall_toList (P := fun indent => indent.all Text.isBlank = true) [_, _, _] rfl
    (by decide +kernel)

/-! ### Words that are not in it -/

/-- The characters of wanted columns end neither a column nor the list of columns, and none of the
columns holds a word by which queries are known. -/
theorem of_mem_desiredColumns : ∀ column ∈ desiredColumns,
    (column.toList ≠ [] ∧ ',' ∉ column.toList ∧ column.toList.any Text.isBlank = false) ∧
      ('F' ∉ column.toList ∧ '*' ∉ column.toList) ∧
      ∀ word ∈ telltales, Text.occursIn word.toList column.toList = false :=
  Text.forall_toList (P := fun column =>
    (column ≠ [] ∧ ',' ∉ column ∧ column.any Text.isBlank = false) ∧
      ('F' ∉ column ∧ '*' ∉ column) ∧
      ∀ word ∈ telltales, Text.occursIn word.toList column = false)
    [_, _, _, _, _, _, _, _, _, _, _, _, _, _, _, _, _, _] rfl (by decide +kernel)

/-- A word that is in nothing that is put into a query over the view, apart from the name of the
view. It reaches over no blank and no comma, and it is no number. -/
structure IsForeign (word : List Char) : Prop where
  blank : ' ' ∉ word ∧ '\n' ∉ word
  comma : ',' ∉ word
  solid : ∃ c ∈ word, c.isDigit = false
  parts : ∀ part ∈ databaseFilter :: fixedParts, Text.occursIn word part.toList = false
  columns : ∀ column ∈ "*" :: desiredColumns, Text.occursIn word column.toList = false

namespace IsForeign

theorem ne_nil (h : IsForeign word) : word ≠ [] := by
  obtain ⟨c, hc, -⟩ := h.solid
  exact List.ne_nil_of_mem hc

theorem not_isInfix_nil (h : IsForeign word) : ¬ word <:+: [] := fun hinside =>
  h.ne_nil (List.eq_nil_of_infix_nil hinside)

theorem not_isInfix_part (h : IsForeign word) {part : String}
    (hpart : part ∈ databaseFilter :: fixedParts) : ¬ word <:+: part.toList := by
  rw [← Text.occursIn_iff, h.parts part hpart]
  exact Bool.false_ne_true

theorem not_isInfix_toDigits (h : IsForeign word) (n : Nat) : ¬ word <:+: Nat.toDigits 10 n := by
  intro hinside
  obtain ⟨c, hc, hdigit⟩ := h.solid
  rw [(isDigits_toDigits n).2 c (hinside.subset hc)] at hdigit
  cases hdigit

/-- It is in no list of columns. -/
theorem not_isInfix_intercalate (h : IsForeign word)
    (hnames : ∀ column ∈ names, column ∈ "*" :: desiredColumns) :
    ¬ word <:+: (", ".intercalate names).toList := by
  induction names with
  | nil => exact h.not_isInfix_nil
  | cons first rest ih =>
    have hrest := ih fun column hcolumn => hnames column (List.mem_cons_of_mem first hcolumn)
    have hfirst : ¬ word <:+: first.toList := by
      rw [← Text.occursIn_iff, h.columns first (hnames first List.mem_cons_self)]
      exact Bool.false_ne_true
    rcases rest with _ | ⟨second, rest⟩
    · rwa [String.intercalate_singleton]
    · have htext : (", ".intercalate (first :: second :: rest)).toList =
          first.toList ++ ',' :: ([] ++ ' ' :: (", ".intercalate (second :: rest)).toList) := by
        rw [String.intercalate_cons_cons, String.toList_append, String.toList_append,
          List.append_assoc]
        rfl
      rw [htext]
      exact Text.not_isInfix_append_cons h.comma hfirst
        (Text.not_isInfix_append_cons h.blank.1 h.not_isInfix_nil hrest)

/-- It is in a query over the view only if it is in the name of the view. -/
theorem not_isInfix_statisticsQuery (h : IsForeign word)
    (hnames : ∀ column ∈ names, column ∈ "*" :: desiredColumns) (hview : ¬ word <:+: view.toList)
    (hfilters : filters ∈ ["", databaseFilter]) (limit : Nat) :
    ¬ word <:+: (statisticsQuery (", ".intercalate names) view filters limit).toList := by
  have hfixed : ∀ part ∈ fixedParts, ¬ word <:+: part.toList := fun part hpart =>
    h.not_isInfix_part (List.mem_cons_of_mem _ hpart)
  have hinserted : ∀ inserted ∈ [(", ".intercalate names).toList, view.toList, filters.toList,
      Nat.toDigits 10 limit], ¬ word <:+: inserted := by
    simp only [List.forall_mem_cons]
    refine ⟨h.not_isInfix_intercalate hnames, hview, ?_, h.not_isInfix_toDigits limit, nofun⟩
    rcases List.mem_pair.mp hfilters with rfl | rfl
    · exact h.not_isInfix_nil
    · exact h.not_isInfix_part List.mem_cons_self
  -- the parts begin with blanks, over which the word does not reach
  rw [toList_statisticsQuery]
  refine Text.not_isInfix_flatten h.ne_nil (forall_mem_partsOf (fun fixed hmem c hc => ?_) ?_)
    (forall_mem_partsOf hfixed fun inserted hmem => ?_)
  · rcases (of_mem_fixedParts fixed hmem).1 with hfirst | hfirst <;> rw [hfirst] at hc
    · exact Option.some.inj hc ▸ h.blank.1
    · exact Option.some.inj hc ▸ h.blank.2
  · exact fun inserted _ c hc => Option.some.inj hc ▸ h.blank.1
  · exact Text.not_isInfix_append_cons h.blank.1 h.not_isInfix_nil (hinserted inserted hmem)

end IsForeign

theorem isForeign_of_mem_telltales {word : String} (hword : word ∈ telltales) :
    IsForeign word.toList := by
  have hcharacters : (' ' ∉ word.toList ∧ '\n' ∉ word.toList) ∧ ',' ∉ word.toList ∧
      ∃ c ∈ word.toList, c.isDigit = false := by
    rcases List.mem_pair.mp hword with rfl | rfl <;> simp
  have hfilter : Text.occursIn word.toList databaseFilter.toList = false := by
    rcases List.mem_pair.mp hword with rfl | rfl <;> decide +kernel
  have hstar : Text.occursIn word.toList "*".toList = false := by
    rcases List.mem_pair.mp hword with rfl | rfl <;> rfl
  obtain ⟨hblank, hcomma, hsolid⟩ := hcharacters
  exact ⟨hblank, hcomma, hsolid,
    List.forall_mem_cons.mpr ⟨hfilter, fun part hmem => (of_mem_fixedParts part hmem).2 word hword⟩,
    List.forall_mem_cons.mpr
      ⟨hstar, fun column hmem => (of_mem_desiredColumns column hmem).2.2 word hword⟩⟩

/-- The name of a view does not count anything. -/
theorem not_isInfix_count (h : Settings.isPlainName view = true) :
    ¬ "COUNT(*)".toList <:+: view.toList := by
  intro hinside
  have hplain := (Bool.and_eq_true_iff.mp h).2
  have hparenthesis : '(' ∈ view.toList := hinside.subset (by simp)
  exact absurd (List.all_eq_true.mp hplain _ hparenthesis) (by decide)

/-! ### The queries without a view -/

theorem occursIn_capacityQuery : Text.occursIn "pg_settings".toList capacityQuery.toList = true ∧
    Text.occursIn "LIMIT 0".toList capacityQuery.toList = false := by
  have hcharacters : capacityQuery.toList = _ := String.toList_ofList
  rw [hcharacters]
  decide +kernel

theorem occursIn_countQuery : ∀ sql ∈ [countQuery, countQueryWithTexts],
    Text.occursIn "pg_settings".toList sql.toList = false ∧
      Text.occursIn "COUNT(*)".toList sql.toList = true ∧
      Text.occursIn "LIMIT 0".toList sql.toList = false :=
  Text.forall_toList (P := fun sql => Text.occursIn "pg_settings".toList sql = false ∧
    Text.occursIn "COUNT(*)".toList sql = true ∧ Text.occursIn "LIMIT 0".toList sql = false)
    [_, _] rfl (by decide +kernel)

/-! ### The limit -/

/-- How a query over the view ends. -/
theorem exists_toList_limit (columns view filters : String) (limit : Nat) :
    ∃ front, (statisticsQuery columns view filters limit).toList =
      front ++ "LIMIT".toList ++ ' ' :: Nat.toDigits 10 limit ++ "\n        ".toList := by
  have hlimit : "\n              LIMIT".toList = "\n              ".toList ++ "LIMIT".toList :=
    Text.toList_eq_append rfl rfl rfl
  refine ⟨((partsOf columns view filters limit).take 13).flatten ++ "\n              ".toList, ?_⟩
  rw [toList_statisticsQuery]
  simp only [partsOf, List.take_succ_cons, List.take_zero, List.flatten_cons, List.flatten_nil,
    hlimit, List.append_assoc, List.append_nil, List.cons_append]

/-! ### The selected columns -/

/-- How a query over the view begins. -/
theorem exists_toList_selection (columns view filters : String) (limit : Nat) :
    ∃ rest, (statisticsQuery columns view filters limit).toList =
      "\n            ".toList ++ ("SELECT".toList ++
        (' ' :: (columns.toList ++ "\n              ".toList) ++ ("FROM".toList ++ rest))) := by
  have hselect : "\n            SELECT".toList = "\n            ".toList ++ "SELECT".toList :=
    Text.toList_eq_append rfl rfl rfl
  have hfrom : "\n              FROM".toList = "\n              ".toList ++ "FROM".toList :=
    Text.toList_eq_append rfl rfl rfl
  refine ⟨((partsOf columns view filters limit).drop 3).flatten, ?_⟩
  rw [toList_statisticsQuery]
  simp only [partsOf, List.drop_succ_cons, List.drop_zero, List.flatten_cons, hselect, hfrom,
    List.append_assoc, List.cons_append]

/-- The characters of a list of columns are those of the columns, commas and blanks. -/
theorem of_mem_intercalate {c : Char} (h : c ∈ (", ".intercalate names).toList) :
    c = ',' ∨ c = ' ' ∨ ∃ name ∈ names, c ∈ name.toList := by
  induction names with
  | nil => cases h
  | cons first rest ih =>
    rcases rest with _ | ⟨second, rest⟩
    · rw [String.intercalate_singleton] at h
      exact .inr (.inr ⟨first, List.mem_cons_self, h⟩)
    · rw [String.intercalate_cons_cons, String.toList_append, String.toList_append,
        List.mem_append, List.mem_append] at h
      rcases h with (h | h) | h
      · exact .inr (.inr ⟨first, List.mem_cons_self, h⟩)
      · have hcomma : ", ".toList = [',', ' '] := rfl
        rw [hcomma, List.mem_pair] at h
        exact h.imp_right .inl
      · rcases ih h with h | h | ⟨name, hname, h⟩
        · exact .inl h
        · exact .inr (.inl h)
        · exact .inr (.inr ⟨name, List.mem_cons_of_mem first hname, h⟩)

/-- Names between commas are found again, with whatever blanks there are around them. -/
theorem map_trim_splitAt {blanks : List Char} (hne : names ≠ [])
    (hnames : ∀ name ∈ names, name.toList ≠ [] ∧ ',' ∉ name.toList ∧
      ∀ c ∈ name.toList, Text.isBlank c = false)
    (hblanks : ∀ c ∈ blanks, Text.isBlank c = true) :
    (Text.splitAt ',' (' ' :: ((", ".intercalate names).toList ++ blanks))).map Text.trim =
      names.map String.toList := by
  have hcomma : ',' ∉ blanks := fun h => absurd (hblanks _ h) (by decide)
  have hspace : ∀ c ∈ [' '], Text.isBlank c = true := List.forall_mem_singleton.mpr rfl
  induction names with
  | nil => exact absurd rfl hne
  | cons first rest ih =>
    obtain ⟨⟨hfirst, hcommas, hsolid⟩, hrest⟩ := List.forall_mem_cons.mp hnames
    rcases rest with _ | ⟨second, rest⟩
    · have hpart : ',' ∉ ' ' :: (first.toList ++ blanks) := by
        rw [List.mem_cons, List.mem_append, not_or, not_or]
        exact ⟨by decide, hcommas, hcomma⟩
      have htrim := Text.trim_blanks hfirst hsolid hspace hblanks
      rw [String.intercalate_singleton, Text.splitAt_of_not_mem hpart]
      exact congrArg (· :: []) htrim
    · have hpart : ',' ∉ ' ' :: first.toList := by
        rw [List.mem_cons, not_or]
        exact ⟨by decide, hcommas⟩
      have htext : ' ' :: ((", ".intercalate (first :: second :: rest)).toList ++ blanks) =
          (' ' :: first.toList) ++
            ',' :: (' ' :: ((", ".intercalate (second :: rest)).toList ++ blanks)) := by
        have hcomma : ", ".toList = [',', ' '] := rfl
        rw [String.intercalate_cons_cons, String.toList_append, String.toList_append, hcomma]
        simp
      have htrim : Text.trim ([' '] ++ (first.toList ++ [])) = first.toList :=
        Text.trim_blanks hfirst hsolid hspace nofun
      rw [List.append_nil] at htrim
      rw [htext, Text.splitAt_append_cons hpart, List.map_cons, List.map_cons,
        ih (List.cons_ne_nil _ _) hrest]
      exact congrArg (· :: _) htrim

end Catalog

end QueryTelemetry
