/-!
# Elements of a list that is made of two parts

Where an element of the whole list stands in the parts.
-/

namespace QueryTelemetry

variable {α : Type} {first second front back : List α} {x last : α}

theorem singleton_eq_append_cons (h : [last] = front ++ x :: back) :
    front = [] ∧ x = last ∧ back = [] := by
  cases front with
  | nil => simpa [eq_comm] using h
  | cons y front => simp at h

/-- An element of two lists stands in one of them. -/
theorem append_eq_append_cons (h : first ++ second = front ++ x :: back) :
    (∃ middle, first = front ++ x :: middle ∧ back = middle ++ second) ∨
      ∃ middle, front = first ++ middle ∧ second = middle ++ x :: back := by
  rcases List.append_eq_append_iff.mp h with ⟨middle, hfront, hsecond⟩ | ⟨middle, hfirst, hmiddle⟩
  · exact .inr ⟨middle, hfront, hsecond⟩
  · cases middle with
    | nil => exact .inr ⟨[], by simp [hfirst], hmiddle.symm⟩
    | cons y middle =>
      obtain ⟨rfl, hback⟩ := List.cons.inj hmiddle
      exact .inl ⟨middle, hfirst, hback⟩

/-- It stands before the last element, or it is the last one. -/
theorem concat_eq_append_cons (h : first ++ [last] = front ++ x :: back) :
    (∃ middle, first = front ++ x :: middle ∧ back = middle ++ [last]) ∨
      front = first ∧ x = last ∧ back = [] := by
  rcases append_eq_append_cons h with hfirst | ⟨middle, rfl, hlast⟩
  · exact .inl hfirst
  · obtain ⟨rfl, rfl, rfl⟩ := singleton_eq_append_cons hlast
    exact .inr ⟨List.append_nil first, rfl, rfl⟩

end QueryTelemetry
