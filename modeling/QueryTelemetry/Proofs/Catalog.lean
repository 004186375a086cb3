import Mathlib.Data.String.Basic
import QueryTelemetry.Catalog

/-!
# Columns and texts of queries

The columns that are selected stand in order, each once (`pairwise_selectedColumns`). Queries for
different things have different texts.
-/

namespace QueryTelemetry

namespace Text

theorem pairwise_insertSorted {name : String} {set : List String} (h : set.Pairwise (· < ·)) :
    (insertSorted name set).Pairwise (· < ·) := by
  induction set with
  | nil => exact List.pairwise_singleton _ _
  | cons other rest ih =>
    rw [List.pairwise_cons] at h
    rw [insertSorted]
    split_ifs with hsame hless
    · exact List.pairwise_cons.mpr h
    · refine List.pairwise_cons.mpr ⟨fun x hx => ?_, List.pairwise_cons.mpr h⟩
      rcases List.mem_cons.mp hx with rfl | hx
      · exact hless
      · exact lt_trans hless (h.1 x hx)
    · -- the name belongs behind the first one
      have hlater : other < name := lt_of_le_of_ne (not_lt.mp hless) (Ne.symm hsame)
      refine List.pairwise_cons.mpr ⟨fun x hx => ?_, ih h.2⟩
      rcases mem_insertSorted.mp hx with rfl | hx
      · exact hlater
      · exact h.1 x hx

/-- A set of names is in order, and holds each of them once. -/
theorem pairwise_sortedSet (names : List String) : (sortedSet names).Pairwise (· < ·) := by
  have general : ∀ (names set : List String), set.Pairwise (· < ·) →
      (names.foldl (fun set name => insertSorted name set) set).Pairwise (· < ·) := by
    intro names
    induction names with
    | nil => exact fun _ h => h
    | cons name names ih => exact fun set h => ih _ (pairwise_insertSorted h)
  exact general names [] List.Pairwise.nil

end Text

namespace Catalog

/-! ### Columns -/

theorem mem_selectedColumns {column : String} {available : List String} :
    column ∈ selectedColumns available ↔ column ∈ available ∧ column ∈ desiredColumns := by
  rw [selectedColumns, List.mem_filter, List.contains_iff_mem]

theorem pairwise_selectedColumns {available : List String} (h : available.Pairwise (· < ·)) :
    (selectedColumns available).Pairwise (· < ·) := h.filter _

theorem missingColumns_eq_nil_iff {available : List String} :
    missingColumns available = [] ↔ ∀ column ∈ requiredColumns, column ∈ available := by
  simp [missingColumns]

/-- All required columns are selected if none of them is missing. -/
theorem mem_selectedColumns_of_required {column : String} {available : List String}
    (h : missingColumns available = []) (hcolumn : column ∈ requiredColumns) :
    column ∈ selectedColumns available := by
  have hdesired : ∀ column ∈ requiredColumns, column ∈ desiredColumns := by
    decide +kernel
  exact mem_selectedColumns.mpr
    ⟨missingColumns_eq_nil_iff.mp h column hcolumn, hdesired column hcolumn⟩

/-! ### Texts -/

theorem isPrefix_toList_append {start s : String} (h : start.toList <+: s.toList) (t : String) :
    start.toList <+: (s ++ t).toList := by
  rw [String.toList_append]
  exact h.trans (List.prefix_append _ _)

/-- How a query over the view begins. -/
theorem isPrefix_statisticsQuery (columns view filters : String) (limit : Nat) :
    ("\n            SELECT " ++ columns).toList <+:
      (statisticsQuery columns view filters limit).toList := by
  unfold statisticsQuery
  iterate 14 refine isPrefix_toList_append ?_ _
  exact List.prefix_refl _

theorem exists_toList_statisticsQuery (columns view filters : String) (limit : Nat) :
    ∃ rest, (statisticsQuery columns view filters limit).toList =
      "\n            SELECT ".toList ++ (columns.toList ++ rest) := by
  obtain ⟨rest, hrest⟩ := isPrefix_statisticsQuery columns view filters limit
  refine ⟨rest, ?_⟩
  rw [← hrest, String.toList_append, List.append_assoc]

/-- A query over the view is none of the queries with a fixed text. -/
theorem statisticsQuery_not_mem (columns view filters : String) (limit : Nat) :
    statisticsQuery columns view filters limit ∉
      [countQuery, countQueryWithTexts, capacityQuery] := by
  have hfixed : ∀ sql ∈ [countQuery, countQueryWithTexts, capacityQuery],
      sql.toList.head? = some 'S' := by
    decide +kernel
  have hbreak : "\n            SELECT ".toList.head? = some '\n' := by
    decide +kernel
  intro h
  obtain ⟨rest, hrest⟩ := exists_toList_statisticsQuery columns view filters limit
  have hhead := hfixed _ h
  rw [hrest, List.head?_append, hbreak] at hhead
  cases hhead

theorem ne_discoveryQuery {sql : String}
    (h : sql ∈ [countQuery, countQueryWithTexts, capacityQuery]) (view : String) :
    sql ≠ discoveryQuery view := by
  rintro rfl
  exact statisticsQuery_not_mem "*" view "" 0 h

/-- A list of columns begins with the first of them. -/
theorem exists_toList_intercalate {columns : List String} (hne : columns ≠ [])
    (h : ∀ column ∈ columns, column ∈ desiredColumns) :
    ∃ c rest, (", ".intercalate columns).toList = c :: rest ∧ c ≠ '*' := by
  obtain ⟨first, rest, rfl⟩ := List.exists_cons_of_ne_nil hne
  have hdesired : ∀ column ∈ desiredColumns,
      column.toList ≠ [] ∧ column.toList.head? ≠ some '*' := by
    decide +kernel
  obtain ⟨hfirst, hstar⟩ := hdesired first (h first List.mem_cons_self)
  obtain ⟨c, chars, hchars⟩ := List.exists_cons_of_ne_nil hfirst
  have hc : c ≠ '*' := by
    rintro rfl
    exact hstar (congrArg List.head? hchars)
  rcases rest with _ | ⟨second, rest⟩
  · exact ⟨c, chars, by simpa using hchars, hc⟩
  · rw [String.intercalate_cons_cons, String.toList_append, String.toList_append, hchars]
    exact ⟨c, _, rfl, hc⟩

/-- The query for the statistics is not the query for the columns. -/
theorem statisticsQuery_ne_discoveryQuery {columns : List String} (hne : columns ≠ [])
    (h : ∀ column ∈ columns, column ∈ desiredColumns) (view filters : String) (limit : Nat) :
    statisticsQuery (", ".intercalate columns) view filters limit ≠ discoveryQuery view := by
  obtain ⟨c, chars, hchars, hc⟩ := exists_toList_intercalate hne h
  obtain ⟨rest, hrest⟩ :=
    exists_toList_statisticsQuery (", ".intercalate columns) view filters limit
  obtain ⟨rest', hrest'⟩ := exists_toList_statisticsQuery "*" view "" 0
  intro heq
  rw [heq, discoveryQuery, hrest', hchars] at hrest
  -- behind the word SELECT one text has a column, the other has a star
  have hbehind := List.append_cancel_left hrest
  exact hc (List.cons.inj hbehind).1.symm

end Catalog

end QueryTelemetry
