import QueryTelemetry.Text.Blank

/-!
# Parts between separators

Parts without separators in them are found again when they stand with separators between them or
behind each of them.
-/

namespace QueryTelemetry

namespace Text

variable {α : Type} [DecidableEq α] {separator : α}

/-- The first part ends at the first separator. -/
theorem splitAt_append_cons {part : List α} (h : separator ∉ part) (rest : List α) :
    splitAt separator (part ++ separator :: rest) = part :: splitAt separator rest := by
  induction part with
  | nil => rw [List.nil_append, splitAt, if_pos rfl]
  | cons c part ih =>
    have hc : c ≠ separator := fun heq => h (heq ▸ List.mem_cons_self)
    have hpart : separator ∉ part := fun hmem => h (List.mem_cons_of_mem c hmem)
    rw [List.cons_append, splitAt, if_neg hc, ih hpart]

/-- Parts with a separator behind each of them are the parts, and an empty one at the end. -/
theorem splitAt_flatMap {parts : List (List α)} (h : ∀ part ∈ parts, separator ∉ part) :
    splitAt separator (parts.flatMap (· ++ [separator])) = parts ++ [[]] := by
  induction parts with
  | nil => rfl
  | cons part parts ih =>
    have hpart := h part List.mem_cons_self
    have hparts := ih fun other hother => h other (List.mem_cons_of_mem part hother)
    rw [List.flatMap_cons, List.append_assoc, List.singleton_append, splitAt_append_cons hpart,
      hparts, List.cons_append]

/-- There are as many separators as parts. -/
theorem count_flatMap {parts : List (List α)} (h : ∀ part ∈ parts, separator ∉ part) :
    (parts.flatMap (· ++ [separator])).count separator = parts.length := by
  induction parts with
  | nil => rfl
  | cons part parts ih =>
    have hpart : part.count separator = 0 := List.count_eq_zero.mpr (h part List.mem_cons_self)
    have hparts := ih fun other hother => h other (List.mem_cons_of_mem part hother)
    rw [List.flatMap_cons, List.count_append, List.count_append, hpart, hparts,
      List.count_singleton_self, List.length_cons]
    omega

/-- A text without separators is a single part. -/
theorem splitAt_of_not_mem {part : List α} (h : separator ∉ part) :
    splitAt separator part = [part] := by
  induction part with
  | nil => rfl
  | cons c part ih =>
    have hc : c ≠ separator := fun heq => h (heq ▸ List.mem_cons_self)
    rw [splitAt, if_neg hc, ih fun hmem => h (List.mem_cons_of_mem c hmem)]

/-- Parts with separators between them are the parts. -/
theorem splitAt_intercalate {parts : List (List α)} (hne : parts ≠ [])
    (h : ∀ part ∈ parts, separator ∉ part) :
    splitAt separator (List.intercalate [separator] parts) = parts := by
  induction parts with
  | nil => exact absurd rfl hne
  | cons part parts ih =>
    have hpart := h part List.mem_cons_self
    cases parts with
    | nil => rw [List.intercalate_singleton, splitAt_of_not_mem hpart]
    | cons other parts =>
      have hothers := ih (List.cons_ne_nil other parts)
        fun part' hpart' => h part' (List.mem_cons_of_mem part hpart')
      rw [List.intercalate_cons_cons, List.append_assoc, List.singleton_append,
        splitAt_append_cons hpart, hothers]

end Text

end QueryTelemetry
