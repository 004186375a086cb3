import Mathlib.Data.List.Basic
import Mathlib.Data.List.Induction
import QueryTelemetry.Baselines

/-!
# Totals of rows with the same key

`merge` goes through the rows once and adds each to the row with its key. What comes of it can be
said for each key by itself: the keys stand in the order in which they come up, and the row of a key
is its first row, with the watched counters of all its rows added up (`merge_eq`).
-/

namespace QueryTelemetry

namespace Baselines

variable {κ ρ : Type} [DecidableEq κ] [HasMetrics ρ]

/-! ### Sums -/

/-- The sum of values, from left to right; none if there are no values. -/
def sum? : List Counter → Option Counter
  | [] => none
  | value :: values => some (values.foldl Counter.add value)

/-- The values that rows have for a metric, added up. -/
def total? (metric : Metric) (rows : List ρ) : Option Counter :=
  sum? (rows.filterMap fun row => (HasMetrics.metrics row).get? metric)

/-- The watched counters of rows, added up. -/
def totals (watched : List Metric) (rows : List ρ) : Metrics :=
  .ofFn fun metric => if metric ∈ watched then total? metric rows else none

/-- The row `first` with the watched counters of all rows, added up. -/
def combine (watched : List Metric) (first : ρ) (rows : List ρ) : ρ :=
  HasMetrics.withMetrics first (.ofFn fun metric =>
    if metric ∈ watched then total? metric rows else (HasMetrics.metrics first).get? metric)

/-- The rows with a key. -/
def rowsWith (key : ρ → κ) (k : κ) (rows : List ρ) : List ρ := rows.filter fun row => key row = k

/-- The keys of rows, in the order in which they come up. -/
def distinctKeys (key : ρ → κ) (rows : List ρ) : List κ := (rows.map key).eraseDups

theorem sum?_concat (values : List Counter) (value : Counter) :
    sum? (values ++ [value]) =
      match sum? values with
      | some sum => some (sum.add value)
      | none => some value := by
  cases values with
  | nil => rfl
  | cons first values => simp [sum?]

theorem total?_singleton (metric : Metric) (row : ρ) :
    total? metric [row] = (HasMetrics.metrics row).get? metric := by
  rw [total?, List.filterMap_cons]
  cases (HasMetrics.metrics row).get? metric <;> rfl

theorem total?_concat (metric : Metric) (rows : List ρ) (row : ρ) :
    total? metric (rows ++ [row]) =
      match total? metric rows, (HasMetrics.metrics row).get? metric with
      | some x, some y => some (x.add y)
      | some x, none => some x
      | none, y => y := by
  rw [total?, total?, List.filterMap_append]
  cases hrow : (HasMetrics.metrics row).get? metric with
  | none =>
    simp only [List.filterMap_cons, hrow, List.filterMap_nil, List.append_nil]
    split <;> simp_all
  | some value =>
    simp only [List.filterMap_cons, hrow, List.filterMap_nil]
    rw [sum?_concat]
    split <;> simp_all

/-- There is a total if some row has a value. -/
theorem isSome_total? (metric : Metric) (rows : List ρ) :
    (total? metric rows).isSome =
      rows.any fun row => ((HasMetrics.metrics row).get? metric).isSome := by
  induction rows using List.reverseRecOn with
  | nil => rfl
  | append_singleton rows row ih =>
    rw [total?_concat, List.any_append, ← ih]
    cases total? metric rows <;> cases hrow : (HasMetrics.metrics row).get? metric <;> simp [hrow]

@[simp] theorem get?_totals (watched : List Metric) (rows : List ρ) (metric : Metric) :
    (totals watched rows).get? metric = if metric ∈ watched then total? metric rows else none :=
  Metrics.get?_ofFn _ _

@[simp] theorem get?_metrics_combine (watched : List Metric) (first : ρ) (rows : List ρ)
    (metric : Metric) :
    (HasMetrics.metrics (combine watched first rows)).get? metric =
      if metric ∈ watched then total? metric rows else (HasMetrics.metrics first).get? metric := by
  rw [combine, HasMetrics.metrics_withMetrics, Metrics.get?_ofFn]

/-- The watched counters of a combined row are the totals. -/
theorem restrict_metrics_combine (watched : List Metric) (first : ρ) (rows : List ρ) :
    (HasMetrics.metrics (combine watched first rows)).restrict watched = totals watched rows := by
  refine Metrics.ext_get? fun metric => ?_
  rw [Metrics.get?_restrict, get?_metrics_combine, get?_totals]
  split <;> rfl

/-- A row is combined with itself alone. -/
theorem combine_singleton (watched : List Metric) (row : ρ) : combine watched row [row] = row := by
  have hmetrics : (Metrics.ofFn fun metric => if metric ∈ watched then total? metric [row]
      else (HasMetrics.metrics row).get? metric) = HasMetrics.metrics row := by
    refine Metrics.ext_get? fun metric => ?_
    rw [Metrics.get?_ofFn, total?_singleton, ite_self]
  rw [combine, hmetrics, HasMetrics.withMetrics_metrics]

/-- Combining goes on row by row. -/
theorem combine_concat (watched : List Metric) (first row : ρ) (rows : List ρ) :
    HasMetrics.withMetrics (combine watched first rows)
        (Metrics.addOn watched (HasMetrics.metrics (combine watched first rows))
          (HasMetrics.metrics row)) =
      combine watched first (rows ++ [row]) := by
  have hmetrics : Metrics.addOn watched (HasMetrics.metrics (combine watched first rows))
      (HasMetrics.metrics row) = HasMetrics.metrics (combine watched first (rows ++ [row])) := by
    refine Metrics.ext_get? fun metric => ?_
    rw [Metrics.get?_addOn, get?_metrics_combine, get?_metrics_combine, total?_concat]
    split <;> rfl
  rw [hmetrics, combine, HasMetrics.withMetrics_withMetrics, combine,
    HasMetrics.metrics_withMetrics]

/-! ### Keys -/

theorem eraseDups_concat (keys : List κ) (key : κ) :
    (keys ++ [key]).eraseDups =
      if key ∈ keys then keys.eraseDups else keys.eraseDups ++ [key] := by
  rw [List.eraseDups_append]
  split <;> simp_all [List.removeAll, List.eraseDups_cons]

theorem eraseDups_filter (p : κ → Bool) (keys : List κ) :
    (keys.filter p).eraseDups = keys.eraseDups.filter p := by
  induction keys using List.reverseRecOn with
  | nil => rfl
  | append_singleton keys key ih =>
    rw [List.filter_append, eraseDups_concat]
    by_cases hkey : p key = true
    · rw [List.filter_cons_of_pos hkey, List.filter_nil, eraseDups_concat, ih]
      by_cases hmem : key ∈ keys
      · rw [if_pos hmem, if_pos (List.mem_filter.mpr ⟨hmem, hkey⟩)]
      · rw [if_neg hmem, if_neg fun h => hmem (List.mem_filter.mp h).1, List.filter_append,
          List.filter_cons_of_pos hkey, List.filter_nil]
    · rw [List.filter_cons_of_neg hkey, List.filter_nil, List.append_nil, ih]
      split
      · rfl
      · rw [List.filter_append, List.filter_cons_of_neg hkey, List.filter_nil, List.append_nil]

omit [HasMetrics ρ] in
theorem mem_rowsWith {key : ρ → κ} {k : κ} {rows : List ρ} {row : ρ} :
    row ∈ rowsWith key k rows ↔ row ∈ rows ∧ key row = k := by
  rw [rowsWith, List.mem_filter, decide_eq_true_iff]

omit [HasMetrics ρ] in
theorem mem_distinctKeys {key : ρ → κ} {rows : List ρ} {k : κ} :
    k ∈ distinctKeys key rows ↔ ∃ row ∈ rows, key row = k := by
  rw [distinctKeys, List.mem_eraseDups, List.mem_map]

omit [HasMetrics ρ] in
theorem distinctKeys_cons (key : ρ → κ) (row : ρ) (rows : List ρ) :
    distinctKeys key (row :: rows) =
      key row :: (distinctKeys key rows).filter fun k => k ≠ key row := by
  have hnot : (fun k => !k == key row) = fun k => decide (k ≠ key row) := by
    funext k
    by_cases h : k = key row <;> simp [h]
  rw [distinctKeys, List.map_cons, List.eraseDups_cons, hnot, eraseDups_filter, distinctKeys]

/-- A row that is added leaves the keys as they are, unless its own is new. -/
theorem keys_mergeRow (watched : List Metric) (key : κ) (row : ρ) (merged : List (κ × ρ)) :
    (mergeRow watched key row merged).map (·.1) =
      if key ∈ merged.map (·.1) then merged.map (·.1) else merged.map (·.1) ++ [key] := by
  induction merged with
  | nil => rfl
  | cons first rest ih =>
    simp only [mergeRow]
    by_cases h : first.1 = key
    · rw [if_pos h]
      simp [h]
    · -- whether the key is new depends on the keys behind the first one
      rw [if_neg h, List.map_cons, ih, List.map_cons]
      by_cases hmem : key ∈ rest.map (·.1)
      · rw [if_pos hmem, if_pos (List.mem_cons_of_mem _ hmem)]
      · have hnew : key ∉ first.1 :: rest.map (·.1) := by
          rw [List.mem_cons, not_or]
          exact ⟨fun same => h same.symm, hmem⟩
        rw [if_neg hmem, if_neg hnew, List.cons_append]

theorem merge_concat (watched : List Metric) (key : ρ → κ) (rows : List ρ) (row : ρ) :
    merge watched key (rows ++ [row]) =
      mergeRow watched (key row) row (merge watched key rows) := by
  rw [merge, List.foldl_append]
  rfl

/-- The keys stand in the order in which they come up. -/
theorem keys_merge (watched : List Metric) (key : ρ → κ) (rows : List ρ) :
    (merge watched key rows).map (·.1) = distinctKeys key rows := by
  induction rows using List.reverseRecOn with
  | nil => rfl
  | append_singleton rows row ih =>
    have hmem : key row ∈ distinctKeys key rows ↔ key row ∈ rows.map key := List.mem_eraseDups
    rw [merge_concat, keys_mergeRow, ih]
    simp only [hmem]
    rw [distinctKeys, distinctKeys, List.map_append, List.map_singleton, eraseDups_concat]

/-- The keys are distinct. -/
theorem nodup_keys_merge (watched : List Metric) (key : ρ → κ) (rows : List ρ) :
    ((merge watched key rows).map (·.1)).Nodup := by
  induction rows using List.reverseRecOn with
  | nil => exact List.nodup_nil
  | append_singleton rows row ih =>
    rw [merge_concat]
    exact nodup_keys_mergeRow watched (key row) row ih

theorem nodup_distinctKeys (key : ρ → κ) (rows : List ρ) : (distinctKeys key rows).Nodup := by
  rw [← keys_merge []]
  exact nodup_keys_merge [] key rows

/-! ### The row of a key -/

/-- Only the row with its key is changed by a row that is added. -/
theorem lookup_mergeRow (watched : List Metric) (key k : κ) (row : ρ) (merged : List (κ × ρ)) :
    (mergeRow watched key row merged).lookup k =
      if k = key then
        match merged.lookup key with
        | none => some row
        | some first => some (HasMetrics.withMetrics first
            (Metrics.addOn watched (HasMetrics.metrics first) (HasMetrics.metrics row)))
      else merged.lookup k := by
  induction merged with
  | nil => rw [mergeRow, lookup_cons_eq, List.lookup_nil, List.lookup_nil]
  | cons first rest ih =>
    obtain ⟨other, first⟩ := first
    rw [mergeRow]
    by_cases hother : other = key
    · subst hother
      rw [if_pos rfl, lookup_cons_eq, lookup_cons_eq, lookup_cons_eq, if_pos rfl]
      split <;> rfl
    · rw [if_neg hother, lookup_cons_eq, lookup_cons_eq, lookup_cons_eq, ih,
        if_neg (Ne.symm hother)]
      split
      · rename_i hk
        rw [if_neg (by rintro rfl; exact hother hk.symm)]
      · rfl

omit [HasMetrics ρ] in
theorem rowsWith_concat (key : ρ → κ) (k : κ) (rows : List ρ) (row : ρ) :
    rowsWith key k (rows ++ [row]) =
      if k = key row then rowsWith key k rows ++ [row] else rowsWith key k rows := by
  rw [rowsWith, List.filter_append, rowsWith, List.filter_cons, List.filter_nil]
  by_cases h : k = key row
  · simp [h]
  · simp [h, Ne.symm h]

/-- The row of a key is its first row, with the watched counters of all its rows added up. -/
theorem lookup_merge (watched : List Metric) (key : ρ → κ) (rows : List ρ) (k : κ) :
    (merge watched key rows).lookup k =
      (rowsWith key k rows).head?.map fun first =>
        combine watched first (rowsWith key k rows) := by
  -- rows are merged one after the other, each into those before it
  induction rows using List.reverseRecOn with
  | nil => rfl
  | append_singleton rows row ih =>
    rw [merge_concat, lookup_mergeRow, rowsWith_concat]
    split
    · rename_i h
      subst h
      rw [ih]
      cases rowsWith key (key row) rows with
      | nil =>
        rw [List.nil_append, List.head?_cons, Option.map_some, combine_singleton]
        rfl
      | cons first rest =>
        rw [List.cons_append, List.head?_cons, Option.map_some, List.head?_cons, Option.map_some,
          ← List.cons_append, ← combine_concat]
    · exact ih

omit [HasMetrics ρ] in
/-- A list of entries with distinct keys is what a lookup of each key finds. -/
theorem eq_filterMap_lookup {entries : List (κ × ρ)} (h : (entries.map (·.1)).Nodup) :
    entries = (entries.map (·.1)).filterMap fun k => (entries.lookup k).map (k, ·) := by
  induction entries with
  | nil => rfl
  | cons first rest ih =>
    obtain ⟨key, row⟩ := first
    rw [List.map_cons, List.nodup_cons] at h
    rw [List.map_cons, List.filterMap_cons, lookup_cons_eq, if_pos rfl, Option.map_some]
    refine congrArg ((key, row) :: ·) ((ih h.2).trans ?_)
    refine List.filterMap_congr fun k hk => ?_
    have hne : k ≠ key := by
      rintro rfl
      exact h.1 hk
    rw [lookup_cons_eq, if_neg hne]

/-- What comes of merging, for each key by itself. -/
theorem merge_eq (watched : List Metric) (key : ρ → κ) (rows : List ρ) :
    merge watched key rows =
      (distinctKeys key rows).filterMap fun k => (rowsWith key k rows).head?.map fun first =>
        (k, combine watched first (rowsWith key k rows)) := by
  rw [eq_filterMap_lookup (nodup_keys_merge watched key rows), keys_merge]
  refine List.filterMap_congr fun k _ => ?_
  rw [lookup_merge, Option.map_map]
  rfl

end Baselines

end QueryTelemetry
