/-!
# Runs of characters

Where the characters of some kind at the front of a text end, and runs of digits in particular.
-/

namespace QueryTelemetry

variable {p q : Char → Bool} {text front rest : List Char}

/-- A text that goes on with no character of a kind goes on with none of a narrower kind. -/
theorem any_head?_of_imp (himp : ∀ c, q c = true → p c = true) (h : text.head?.any p = false) :
    text.head?.any q = false := by
  cases text with
  | nil => rfl
  | cons c rest =>
    have hc : p c = false := h
    rw [List.head?_cons, Option.any_some, ← Bool.not_eq_true]
    intro hq
    rw [himp c hq] at hc
    cases hc

theorem any_head?_dropWhile (p : Char → Bool) (text : List Char) :
    (text.dropWhile p).head?.any p = false := by
  have := List.head?_dropWhile_not p text
  cases h : (text.dropWhile p).head? with
  | none => rfl
  | some c => simpa [h] using this

theorem dropWhile_eq_self (h : text.head?.any p = false) : text.dropWhile p = text := by
  cases text with
  | nil => rfl
  | cons c rest =>
    have hc : ¬ p c = true := by simpa using h
    exact List.dropWhile_cons_of_neg hc

theorem length_dropWhile_le (p : Char → Bool) (text : List Char) :
    (text.dropWhile p).length ≤ text.length :=
  (List.dropWhile_suffix p).length_le

/-- A run of at least one character is taken away. -/
theorem length_dropWhile_lt (h : text.head?.any p = true) :
    (text.dropWhile p).length < text.length := by
  cases text with
  | nil => cases h
  | cons c rest =>
    have hc : p c = true := by simpa using h
    rw [List.dropWhile_cons_of_pos hc, List.length_cons]
    exact Nat.lt_succ_of_le (length_dropWhile_le p rest)

/-- A run ends in front of a text on which it does not go on. -/
theorem dropWhile_append_of_forall (hfront : ∀ c ∈ front, p c = true)
    (hrest : rest.head?.any p = false) : (front ++ rest).dropWhile p = rest := by
  rw [List.dropWhile_append_of_pos hfront, dropWhile_eq_self hrest]

theorem takeWhile_eq_nil (h : text.head?.any p = false) : text.takeWhile p = [] := by
  cases text with
  | nil => rfl
  | cons c rest =>
    have hc : ¬ p c = true := by simpa using h
    exact List.takeWhile_cons_of_neg hc

/-- A run in front of a text on which it does not go on is taken as a whole. -/
theorem takeWhile_append_of_forall (hfront : ∀ c ∈ front, p c = true)
    (hrest : rest.head?.any p = false) : (front ++ rest).takeWhile p = front := by
  rw [List.takeWhile_append_of_pos hfront, takeWhile_eq_nil hrest, List.append_nil]

/-! ### Digits -/

theorem ne_of_isDigit {c d : Char} (hc : c.isDigit = true) (hd : d.isDigit = false) : c ≠ d := by
  rintro rfl
  rw [hc] at hd
  exact Bool.noConfusion hd

/-- Digits, at least one. -/
def IsDigits (text : List Char) : Prop := text ≠ [] ∧ ∀ c ∈ text, c.isDigit = true

namespace IsDigits

theorem exists_eq_concat (h : IsDigits text) :
    ∃ front d, text = front ++ [d] ∧ d.isDigit = true := by
  obtain ⟨front, d, hconcat⟩ := (List.eq_nil_or_concat text).resolve_left h.1
  obtain rfl : text = front ++ [d] := by simpa using hconcat
  exact ⟨front, d, rfl, h.2 d (by simp)⟩

theorem any_head?_append (h : IsDigits text) (rest : List Char) :
    (text ++ rest).head?.any Char.isDigit = true := by
  obtain ⟨hne, hdigits⟩ := h
  cases text with
  | nil => exact absurd rfl hne
  | cons d digits => exact hdigits d List.mem_cons_self

end IsDigits

theorem isDigits_toDigits (n : Nat) : IsDigits (Nat.toDigits 10 n) :=
  ⟨Nat.toDigits_ne_nil, fun _ hc => Nat.isDigit_of_mem_toDigits (by decide) (by decide) hc⟩

theorem digitChar_ne_zero : ∀ n < 10, 0 < n → Nat.digitChar n ≠ '0' := by decide

/-- A number that is not zero does not begin with a zero. -/
theorem head?_toDigits_ne {n : Nat} (h : 0 < n) : (Nat.toDigits 10 n).head? ≠ some '0' := by
  induction n using Nat.strongRecOn with
  | _ n ih =>
    rcases Nat.lt_or_ge n 10 with hlt | hge
    · rw [Nat.toDigits_of_lt_base hlt, List.head?_cons]
      exact fun hzero => digitChar_ne_zero n hlt h (Option.some.inj hzero)
    · have hsmaller := ih (n / 10) (by omega) (by omega)
      rwa [Nat.toDigits_of_base_le (by decide) hge, List.head?_append,
        Option.or_of_isSome (by simp [Nat.toDigits_ne_nil])]

end QueryTelemetry
