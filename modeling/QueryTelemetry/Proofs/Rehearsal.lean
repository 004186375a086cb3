import QueryTelemetry.Proofs.Catalog.Texts
import QueryTelemetry.Proofs.Collection.Requests
import QueryTelemetry.Proofs.ServerVersion
import QueryTelemetry.Rehearsal

/-!
# Rehearsals understand the queries of a collector

A rehearsal knows queries by words in their texts, and it tries one word after the other. What a
collector may ask is a `Question` (`IsRequest.exists_question`): each has a text, and an answer that
is said without any text (`Question.reply`). If the name of the view does not hold the word by which
the query for the room in the view is known, each question is taken for what it is (`kindOf_sql`)
and answered so (`query_question`), and over a whole run the queries that look for columns are
counted (`ask_of_isPlainName`). A view that is called like the settings of the server is mistaken
for them (`kindOf_discoveryQuery`).
-/

namespace QueryTelemetry

namespace Rehearsal

open Catalog

/-! ### Questions -/

/-- What a query is about. -/
inductive Kind
  | capacity
  | count
  | discovery
  | statistics
  deriving DecidableEq

/-- What a rehearsal takes a query for. -/
def kindOf (sql : String) : Kind :=
  if Text.occursIn "pg_settings".toList sql.toList then .capacity
  else if Text.occursIn "COUNT(*)".toList sql.toList then .count
  else if isDiscovery sql then .discovery
  else .statistics

/-- What a collector may ask. -/
inductive Question
  /-- For how many statements the view has room. -/
  | capacity
  /-- How many statements are in the view, on servers that can leave the texts out or cannot. -/
  | count (withTexts : Bool)
  /-- Which columns the view has. -/
  | discovery
  /-- Some columns of the rows, of one database or of all. -/
  | statistics (columns : List String) (database : Option String) (limit : Nat)

namespace Question

def kind : Question → Kind
  | capacity => .capacity
  | count _ => .count
  | discovery => .discovery
  | statistics .. => .statistics

/-- The text of a question about a view. -/
def sql (view : String) : Question → String
  | capacity => capacityQuery
  | count true => countQueryWithTexts
  | count false => countQuery
  | discovery => discoveryQuery view
  | statistics columns database limit =>
    statisticsQuery (", ".intercalate columns) view
      (if database.isSome then databaseFilter else "") limit

/-- What goes with the text. -/
def parameters : Question → List String
  | statistics _ database _ => database.toList
  | _ => []

/-- Some of the columns that a collector wants are asked for, each once, and of one row at least. -/
def IsProper : Question → Prop
  | statistics columns _ limit =>
    columns ≠ [] ∧ columns.Nodup ∧ (∀ column ∈ columns, column ∈ desiredColumns) ∧ 0 < limit
  | _ => True

/-- Whether a row belongs to a database, if one is given. -/
def concerns (database : Option String) (row : ViewRow) : Bool :=
  database.all fun name => row.text? "datname" = some name

/-- The cells of a row in the given columns, as far as it has them. -/
def cellsOf (columns : List String) (row : ViewRow) : List (String × Cell) :=
  columns.filterMap fun column => (row.get? column).map (column, ·)

/-- The answer to a question from what a rehearsal holds. -/
def reply (r : Rehearsal) : Question → QueryResult
  | capacity => ⟨["setting"], [⟨[("setting", .text (toString r.capacity.toInt))]⟩]⟩
  | count _ => ⟨["count"], [⟨[("count", .whole r.count)]⟩]⟩
  | discovery => ⟨r.columns, []⟩
  | statistics columns database _ =>
    ⟨columns, (r.rows.filter (concerns database)).map fun row => ⟨cellsOf columns row⟩⟩

end Question

/-- Asks one question after the other. -/
def ask (view : String) : List Question → Rehearsal →
    List (Except QueryError QueryResult) × Rehearsal
  | [], r => ([], r)
  | q :: questions, r =>
    let (answer, r) := r.query (q.sql view) q.parameters
    let (answers, r) := ask view questions r
    (answer :: answers, r)

end Rehearsal

/-! ### Rows and numbers -/

namespace ViewRow

theorem set_cons (column other : String) (cell old : Cell) (rest : List (String × Cell)) :
    (mk ((other, old) :: rest)).set column cell =
      if other = column then mk ((column, cell) :: rest)
      else mk ((other, old) :: ((mk rest).set column cell).cells) := by
  split_ifs with hsame
  · exact congrArg mk (if_pos hsame)
  · exact congrArg mk (if_neg hsame)

/-- A cell of a new column comes last. -/
theorem set_of_not_mem {column : String} {cells : List (String × Cell)}
    (h : column ∉ cells.map Prod.fst) (cell : Cell) :
    (mk cells).set column cell = mk (cells ++ [(column, cell)]) := by
  induction cells with
  | nil => rfl
  | cons first rest ih =>
    obtain ⟨other, old⟩ := first
    rw [List.map_cons, List.mem_cons, not_or] at h
    rw [set_cons, if_neg (Ne.symm h.1), ih h.2]
    rfl

/-- Cells under different names are the row as they are. -/
theorem ofList_of_nodup {cells : List (String × Cell)} (h : (cells.map Prod.fst).Nodup) :
    ofList cells = mk cells := by
  induction cells using List.reverseRecOn with
  | nil => rfl
  | append_singleton cells cell ih =>
    rw [List.map_append, List.nodup_append] at h
    have hnew : cell.1 ∉ cells.map Prod.fst := fun hmem =>
      h.2.2 cell.1 hmem cell.1 (List.mem_singleton_self _) rfl
    have hconcat : ofList (cells ++ [cell]) = (ofList cells).set cell.1 cell.2 :=
      List.foldl_append ..
    rw [hconcat, ih h.1, set_of_not_mem hnew]

end ViewRow

/-- A whole number is written as usual. -/
theorem Json.ofList_writeWhole (n : Int) : String.ofList (writeWhole n) = toString n := by
  rw [← String.toList_inj, String.toList_ofList, writeWhole]
  cases n with
  | ofNat k => exact (Catalog.toList_toString k).symm
  | negSucc k =>
    have htext : toString (Int.negSucc k) = "-" ++ Nat.repr (k + 1) := rfl
    have hminus : "-".toList = ['-'] := rfl
    rw [if_pos (Int.negSucc_lt_zero k), htext, String.toList_append, Nat.toList_repr, hminus]
    rfl

namespace Rehearsal

open Catalog Question

variable {view : String} {q : Question} {names : List String}

/-! ### Reading a query -/

/-- A query over the view asks for the columns only exactly if its limit is zero. -/
theorem isDiscovery_statisticsQuery (columns view filters : String) (limit : Nat) :
    isDiscovery (statisticsQuery columns view filters limit) = decide (limit = 0) := by
  obtain ⟨front, htext⟩ := exists_toList_limit columns view filters limit
  have hdigits := isDigits_toDigits limit
  have hspace : ' ' ∉ Nat.toDigits 10 limit := fun h => absurd (hdigits.2 _ h) (by decide)
  have hblanks := List.all_eq_true.mp (all_isBlank_of_mem_indents "\n        " (by simp))
  have hlast : (front ++ "LIMIT".toList ++ ' ' :: Nat.toDigits 10 limit).getLast?.any
      Text.isBlank = false := by
    obtain ⟨digits, last, htoDigits⟩ := List.eq_nil_or_concat' _ |>.resolve_left hdigits.1
    have hlast := hdigits.2 last (by rw [htoDigits]; exact List.mem_concat_self)
    have hsolid : Text.isBlank last = false := Bool.eq_false_iff.mpr fun hblank => by
      rw [Redaction.isDigit_eq_false_of_isBlank hblank] at hlast
      cases hlast
    rw [htoDigits, ← List.cons_append, ← List.append_assoc, List.getLast?_concat, Option.any_some,
      hsolid]
  have hzero : "LIMIT 0".toList = "LIMIT".toList ++ ' ' :: ['0'] := rfl
  rw [isDiscovery, htext, Text.trimEnd_append_blanks hlast hblanks, hzero,
    Bool.eq_iff_iff, List.isSuffixOf_iff_suffix, decide_eq_true_iff]
  constructor
  · rintro ⟨before, hbefore⟩
    rw [← List.append_assoc] at hbefore
    -- behind the last blank of the two texts stand their limits
    have hsame : ['0'] = Nat.toDigits 10 limit :=
      Text.eq_of_append_cons_eq (by decide) hspace hbefore
    exact ServerVersion.toDigits_injective (hsame.symm.trans (Nat.toDigits_zero 10).symm)
  · rintro rfl
    exact ⟨front, by rw [Nat.toDigits_zero, List.append_assoc]⟩

/-- The selected columns are read back from a query over the view. -/
theorem selection_statisticsQuery (hne : names ≠ [])
    (hnames : ∀ name ∈ names, name ∈ desiredColumns) (view filters : String) (limit : Nat) :
    selection (statisticsQuery (", ".intercalate names) view filters limit) = names := by
  obtain ⟨rest, htext⟩ := exists_toList_selection (", ".intercalate names) view filters limit
  have hname : ∀ name ∈ names, name.toList ≠ [] ∧ ',' ∉ name.toList ∧
      ∀ c ∈ name.toList, Text.isBlank c = false := by
    intro name hmem
    obtain ⟨⟨hsome, hcomma, hsolid⟩, -⟩ := of_mem_desiredColumns name (hnames name hmem)
    exact ⟨hsome, hcomma, by simpa using hsolid⟩
  have hindent := List.all_eq_true.mp (all_isBlank_of_mem_indents "\n            " (by simp))
  have hblanks := List.all_eq_true.mp (all_isBlank_of_mem_indents "\n              " (by simp))
  have hS : 'S' ∉ "\n            ".toList := fun h => absurd (hindent _ h) (by decide)
  have hF : 'F' ∉ ' ' :: ((", ".intercalate names).toList ++ "\n              ".toList) := by
    rw [List.mem_cons, List.mem_append, not_or, not_or]
    refine ⟨by decide, fun h => ?_, fun h => absurd (hblanks _ h) (by decide)⟩
    rcases of_mem_intercalate h with h | h | ⟨name, hmem, h⟩
    · exact absurd h (by decide)
    · exact absurd h (by decide)
    · exact (of_mem_desiredColumns name (hnames name hmem)).2.1.1 h
  have hselect : "SELECT".toList = ['S', 'E', 'L', 'E', 'C', 'T'] := String.toList_ofList
  have hfrom : "FROM".toList = ['F', 'R', 'O', 'M'] := String.toList_ofList
  rw [selection, htext, hselect, hfrom, Text.afterFirst?_append_of_not_mem hS]
  dsimp only
  rw [Text.beforeFirst_append_of_not_mem hF, map_trim_splitAt hne hname hblanks,
    List.filter_eq_self.mpr]
  · simp [Function.comp_def]
  · intro part hpart
    obtain ⟨name, hmem, rfl⟩ := List.mem_map.mp hpart
    simpa using (hname name hmem).1

/-! ### What a query is taken for -/

/-- A query over the view is known by its limit. -/
theorem kindOf_statisticsQuery (hview : Settings.isPlainName view = true)
    (hsettings : ¬ "pg_settings".toList <:+: view.toList)
    (hnames : ∀ name ∈ names, name ∈ "*" :: desiredColumns) {filters : String}
    (hfilters : filters ∈ ["", databaseFilter]) (limit : Nat) :
    kindOf (statisticsQuery (", ".intercalate names) view filters limit) =
      if limit = 0 then .discovery else .statistics := by
  have hforeign {word : String} (hword : word ∈ telltales)
      (hfree : ¬ word.toList <:+: view.toList) :=
    (isForeign_of_mem_telltales hword).not_isInfix_statisticsQuery hnames hfree hfilters limit
  have hnoSettings := hforeign List.mem_cons_self hsettings
  have hnoCount := hforeign (by simp [telltales]) (not_isInfix_count hview)
  rw [← Text.occursIn_iff] at hnoSettings hnoCount
  rw [kindOf, if_neg hnoSettings, if_neg hnoCount, isDiscovery_statisticsQuery]
  simp only [decide_eq_true_eq]

/-- Each question is taken for what it is, if the name of the view does not hold the word by which
the settings of the server are known. -/
theorem kindOf_sql (hview : Settings.isPlainName view = true)
    (hsettings : ¬ "pg_settings".toList <:+: view.toList) (hq : q.IsProper) :
    kindOf (q.sql view) = q.kind := by
  cases q with
  | capacity => exact if_pos occursIn_capacityQuery.1
  | count withTexts =>
    obtain ⟨hnoSettings, hcount, -⟩ := occursIn_countQuery (sql view (.count withTexts))
      (by cases withTexts <;> simp [sql])
    rw [kindOf, hnoSettings, if_neg Bool.false_ne_true, if_pos hcount]
    rfl
  | discovery =>
    have hstar : "*" = ", ".intercalate ["*"] := rfl
    rw [sql, discoveryQuery, hstar, kindOf_statisticsQuery hview hsettings (by simp) (by simp)]
    rfl
  | statistics names database limit =>
    obtain ⟨-, -, hnames, hlimit⟩ := hq
    have hwanted : ∀ name ∈ names, name ∈ "*" :: desiredColumns := fun name hmem =>
      List.mem_cons_of_mem _ (hnames name hmem)
    rw [sql, kindOf_statisticsQuery hview hsettings hwanted (by split <;> simp), if_neg hlimit.ne']
    rfl

/-- Whether the columns of a view can be found out depends on its name only. -/
theorem kindOf_discoveryQuery (hview : Settings.isPlainName view = true) :
    kindOf (discoveryQuery view) =
      if "pg_settings".toList <:+: view.toList then .capacity else .discovery := by
  split_ifs with hsettings
  · have hinside := hsettings.trans (isInfix_view_statisticsQuery "*" view "" 0)
    exact if_pos (Text.occursIn_iff.mpr hinside)
  · exact kindOf_sql (q := .discovery) hview hsettings trivial

theorem isDiscovery_eq_false {sql : String}
    (h : Text.occursIn "LIMIT 0".toList sql.toList = false) : isDiscovery sql = false := by
  rw [← Bool.not_eq_true, Text.occursIn_iff] at h
  rw [isDiscovery, ← Bool.not_eq_true, List.isSuffixOf_iff_suffix]
  intro hsuffix
  obtain ⟨blanks, -, htext⟩ := Redaction.exists_eq_trimEnd_append sql.toList
  exact h (hsuffix.isInfix.trans ⟨[], blanks, htext.symm⟩)

/-- Only the question for the columns is counted. -/
theorem isDiscovery_sql (hq : q.IsProper) :
    isDiscovery (q.sql view) = decide (q.kind = .discovery) := by
  cases q with
  | capacity => exact isDiscovery_eq_false occursIn_capacityQuery.2
  | count withTexts =>
    obtain ⟨-, -, hnoLimit⟩ := occursIn_countQuery (sql view (.count withTexts))
      (by cases withTexts <;> simp [sql])
    exact isDiscovery_eq_false hnoLimit
  | discovery => rw [sql, discoveryQuery, isDiscovery_statisticsQuery]; rfl
  | statistics names database limit =>
    obtain ⟨-, -, -, hlimit⟩ := hq
    rw [sql, isDiscovery_statisticsQuery, decide_eq_false hlimit.ne']
    rfl

/-! ### Answers -/

/-- The answer depends on what the query is taken for. -/
theorem answer_eq (r : Rehearsal) (sql : String) (parameters : List String) :
    r.answer sql parameters =
      match kindOf sql with
      | .capacity =>
        ⟨["setting"], [⟨[("setting", .text (String.ofList (Json.writeWhole r.capacity.toInt)))]⟩]⟩
      | .count => ⟨["count"], [⟨[("count", .whole r.count)]⟩]⟩
      | .discovery => ⟨r.columns, []⟩
      | .statistics => r.statistics sql parameters := by
  unfold kindOf
  change (if Text.occursIn "pg_settings".toList sql.toList then _
    else if Text.occursIn "COUNT(*)".toList sql.toList then _
    else if isDiscovery sql then _ else _) = _
  split_ifs <;> rfl

theorem map_fst_cellsOf (names : List String) (row : ViewRow) :
    (cellsOf names row).map Prod.fst = names.filter fun name => (row.get? name).isSome := by
  induction names with
  | nil => rfl
  | cons name names ih =>
    rw [cellsOf] at ih ⊢
    rw [List.filterMap_cons, List.filter_cons]
    cases row.get? name with
    | none => exact ih
    | some cell => exact congrArg (name :: ·) ih

/-- A row is projected to its cells in the columns. -/
theorem project_eq (hnames : names.Nodup) :
    project names = fun row => ⟨cellsOf names row⟩ := by
  funext row
  refine ViewRow.ofList_of_nodup ?_
  have hcells := map_fst_cellsOf names row
  rw [cellsOf] at hcells
  rw [hcells]
  exact hnames.filter _

/-- A row is wanted if it belongs to the database that is asked for. -/
theorem isWanted_eq (names : List String) (database : Option String) (limit : Nat) :
    isWanted (parameters (.statistics names database limit)) = concerns database := by
  funext row
  cases database with
  | none => rfl
  | some name => exact beq_eq_decide _ _

/-- Each question is answered as it should be. -/
theorem answer_sql (hview : Settings.isPlainName view = true)
    (hsettings : ¬ "pg_settings".toList <:+: view.toList) (hq : q.IsProper) (r : Rehearsal) :
    r.answer (q.sql view) q.parameters = q.reply r := by
  rw [answer_eq, kindOf_sql hview hsettings hq]
  cases q with
  | capacity =>
    rw [reply, ← Json.ofList_writeWhole]
    rfl
  | count withTexts => rfl
  | discovery => rfl
  | statistics names database limit =>
    obtain ⟨hne, hnodup, hnames, -⟩ := hq
    have hselection := selection_statisticsQuery hne hnames view
      (if database.isSome then databaseFilter else "") limit
    have hstar : names ≠ ["*"] := by
      rintro rfl
      have hdesired := hnames "*" (List.mem_singleton_self _)
      exact (of_mem_desiredColumns "*" hdesired).2.1.2 (by simp)
    change r.statistics _ _ = _
    rw [statistics, sql, hselection, isWanted_eq, if_neg hstar, project_eq hnodup]
    rfl

/-- Nothing fails unless it has been told to. -/
theorem query_of_nothing_pending {r : Rehearsal} (hfailures : r.failures = [])
    (htargeted : r.targeted = []) (sql : String) (parameters : List String) :
    r.query sql parameters =
      (.ok (r.answer sql parameters), { r with executed := r.executed ++ [sql] }) := by
  obtain ⟨columns, rows, count, capacity, version, failures, targeted, executed⟩ := r
  subst hfailures htargeted
  rfl

/-- A question is answered and kept, and nothing else changes. -/
theorem query_question {r : Rehearsal} (hview : Settings.isPlainName view = true)
    (hsettings : ¬ "pg_settings".toList <:+: view.toList) (hq : q.IsProper)
    (hfailures : r.failures = []) (htargeted : r.targeted = []) :
    r.query (q.sql view) q.parameters =
      (.ok (q.reply r), { r with executed := r.executed ++ [q.sql view] }) := by
  rw [query_of_nothing_pending hfailures htargeted, answer_sql hview hsettings hq]

/-! ### Runs -/

variable {questions : List Question}

/-- Answers do not depend on what has been asked before. -/
theorem ask_eq (hview : Settings.isPlainName view = true)
    (hsettings : ¬ "pg_settings".toList <:+: view.toList) (hquestions : ∀ q ∈ questions, q.IsProper)
    {r : Rehearsal} (hfailures : r.failures = []) (htargeted : r.targeted = []) :
    ask view questions r =
      (questions.map fun q => .ok (q.reply r),
        { r with executed := r.executed ++ questions.map (sql view) }) := by
  induction questions generalizing r with
  | nil => rw [ask, List.map_nil, List.map_nil, List.append_nil]
  | cons q questions ih =>
    obtain ⟨hq, hrest⟩ := List.forall_mem_cons.mp hquestions
    have hsame (q' : Question) :
        q'.reply { r with executed := r.executed ++ [q.sql view] } = q'.reply r := by
      cases q' <;> rfl
    have hnext := ih hrest (r := { r with executed := r.executed ++ [q.sql view] }) hfailures
      htargeted
    rw [ask, query_question hview hsettings hq hfailures htargeted]
    dsimp only
    rw [hnext]
    simp only [hsame, List.append_assoc, List.map_cons, List.singleton_append]

theorem length_filter_isDiscovery (hquestions : ∀ q ∈ questions, q.IsProper) :
    ((questions.map (sql view)).filter isDiscovery).length =
      questions.countP fun q => q.kind = .discovery := by
  rw [List.filter_map, List.length_map, ← List.countP_eq_length_filter]
  refine List.countP_congr fun q hmem => ?_
  rw [Function.comp_apply, isDiscovery_sql (hquestions q hmem)]

/-- A rehearsal with nothing told to fail takes each question about a view for what it is and
answers it from its contents, and it counts the questions for columns. The name of the view is plain
and does not hold the word by which the query for the room in the view is known. -/
theorem ask_of_isPlainName (hview : Settings.isPlainName view = true)
    (hsettings : ¬ "pg_settings".toList <:+: view.toList) (hquestions : ∀ q ∈ questions, q.IsProper)
    {r : Rehearsal} (hfailures : r.failures = []) (htargeted : r.targeted = []) :
    (∀ q ∈ questions, kindOf (q.sql view) = q.kind) ∧
      (ask view questions r).1 = questions.map (fun q => .ok (q.reply r)) ∧
      (ask view questions r).2 = { r with executed := r.executed ++ questions.map (sql view) } ∧
      (ask view questions r).2.discoveries =
        r.discoveries + questions.countP fun q => q.kind = .discovery := by
  have hrun := ask_eq hview hsettings hquestions hfailures htargeted
  refine ⟨fun q hmem => kindOf_sql hview hsettings (hquestions q hmem), congrArg Prod.fst hrun,
    congrArg Prod.snd hrun, ?_⟩
  rw [hrun, discoveries, List.filter_append, List.length_append,
    length_filter_isDiscovery hquestions]
  rfl

theorem ask_of_isPlainName_usual :
    let app : ViewRow := ⟨[("query", .text "SELECT 1"), ("datname", .text "app")]⟩
    let other : ViewRow := ⟨[("query", .text "SELECT 2"), ("datname", .text "other")]⟩
    (ask "pg_stat_statements"
      [.discovery, .count false, .statistics ["calls", "query"] (some "app") 10,
        .statistics ["datname", "query"] none 1] { initial with rows := [app, other] }).1 =
      [.ok ⟨recentColumns, []⟩, .ok ⟨["count"], [⟨[("count", .whole 0)]⟩]⟩,
        .ok ⟨["calls", "query"], [⟨[("query", .text "SELECT 1")]⟩]⟩,
        .ok ⟨["datname", "query"], [⟨[("datname", .text "app"), ("query", .text "SELECT 1")]⟩,
          ⟨[("datname", .text "other"), ("query", .text "SELECT 2")]⟩]⟩] := by
  intro app other
  have hview : Settings.isPlainName "pg_stat_statements" = true := by decide +kernel
  have hsettings : ¬ "pg_settings".toList <:+: "pg_stat_statements".toList := by
    rw [← Text.occursIn_iff]
    decide +kernel
  have hquestions : ∀ q ∈ [.discovery, .count false, .statistics ["calls", "query"] (some "app") 10,
      .statistics ["datname", "query"] none 1], IsProper q := by
    simp only [List.forall_mem_cons]
    refine ⟨trivial, trivial, ⟨?_, ?_, ?_, ?_⟩, ⟨?_, ?_, ?_, ?_⟩, nofun⟩ <;> decide
  exact (ask_of_isPlainName hview hsettings hquestions rfl rfl).2.1

/-- A view that is called like the settings of the server is mistaken for them. -/
theorem answer_settings :
    Settings.isPlainName "pg_settings" = true ∧
      kindOf (discoveryQuery "pg_settings") = .capacity ∧
      (initial.query (discoveryQuery "pg_settings") []).1 = .ok (Question.capacity.reply initial) ∧
      Question.capacity.reply initial ≠ Question.discovery.reply initial := by
  have hview : Settings.isPlainName "pg_settings" = true := by decide +kernel
  have hkind : kindOf (discoveryQuery "pg_settings") = .capacity := by
    rw [kindOf_discoveryQuery hview, if_pos List.infix_rfl]
  refine ⟨hview, hkind, ?_, fun h => List.cons_ne_nil _ _ (congrArg QueryResult.rows h)⟩
  rw [query_of_nothing_pending rfl rfl, answer_eq, hkind, reply, ← Json.ofList_writeWhole]

end Rehearsal

/-- What a collector sends are questions about its view. -/
theorem IsRequest.exists_question {settings : Settings} {sql : String} {parameters : List String}
    (h : IsRequest settings sql parameters) (hlimit : settings.rowLimit ≠ 0) :
    ∃ q : Rehearsal.Question,
      q.IsProper ∧ q.sql settings.view = sql ∧ q.parameters = parameters := by
  rcases h with ⟨h⟩ | _ | @⟨columns, hne, hdistinct, hdesired⟩
  · rcases List.mem_cons.mp h with rfl | h
    · exact ⟨.count false, trivial, rfl, rfl⟩
    · rcases List.mem_pair.mp h with rfl | rfl
      · exact ⟨.count true, trivial, rfl, rfl⟩
      · exact ⟨.capacity, trivial, rfl, rfl⟩
  · exact ⟨.discovery, trivial, rfl, rfl⟩
  · cases hdatabase : settings.onlyDatabase with
    | false =>
      exact ⟨.statistics columns none settings.rowLimit,
        ⟨hne, hdistinct, hdesired, Nat.pos_of_ne_zero hlimit⟩, rfl, rfl⟩
    | true =>
      exact ⟨.statistics columns (some settings.database) settings.rowLimit,
        ⟨hne, hdistinct, hdesired, Nat.pos_of_ne_zero hlimit⟩, rfl, rfl⟩

end QueryTelemetry
