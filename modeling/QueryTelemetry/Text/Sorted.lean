/-!
# Sets of names in order

A set of names is kept as a list that is sorted by code points and holds each name once.
-/

namespace QueryTelemetry

namespace Text

/-- Puts a name at its place, unless it is there already. -/
def insertSorted (name : String) : List String → List String
  | [] => [name]
  | other :: rest =>
    if name = other then other :: rest
    else if name < other then name :: other :: rest
    else other :: insertSorted name rest

/-- The names of a list in order, each once. -/
def sortedSet (names : List String) : List String :=
  names.foldl (fun set name => insertSorted name set) []

theorem mem_insertSorted {name x : String} {set : List String} :
    x ∈ insertSorted name set ↔ x = name ∨ x ∈ set := by
  induction set with
  | nil => simp [insertSorted]
  | cons other rest ih =>
    simp only [insertSorted]
    split
    · simp_all
    · split
      · simp
      · simp only [List.mem_cons, ih]
        exact or_left_comm

/-- Sorting neither adds nor loses a name. -/
theorem mem_sortedSet {x : String} {names : List String} : x ∈ sortedSet names ↔ x ∈ names := by
  have general : ∀ (names set : List String),
      x ∈ names.foldl (fun set name => insertSorted name set) set ↔ x ∈ set ∨ x ∈ names := by
    intro names
    induction names with
    | nil => simp
    | cons name names ih =>
      intro set
      simp only [List.foldl_cons, ih, mem_insertSorted, List.mem_cons]
      constructor
      · rintro ((h | h) | h) <;> simp [h]
      · rintro (h | h | h) <;> simp [h]
  simpa [sortedSet] using general names []

end Text

end QueryTelemetry
