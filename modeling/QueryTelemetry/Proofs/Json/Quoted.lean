import QueryTelemetry.Json.Reading

/-!
# Texts in quotes

A text is written in quotes with some of its characters escaped. Each character is read back as one
unit, escaped or plain (`textUnits?_quote`), and the units stand for the text
(`decodeText?_unitsOf`). No control character appears in quotes, the line break in particular
(`toNat_ge_of_mem_quote`).
-/

namespace QueryTelemetry

namespace Json

/-- How a character in quotes is read. Control characters without a letter of their own are given by
their number. -/
def unitOf (c : Char) : TextUnit :=
  if c.toNat < 0x20 ∧ c ∉ ['\x08', '\x0c', '\n', '\r', '\t'] then .escaped c.toNat else .plain c

/-- How a text in quotes is read. -/
def unitsOf (s : String) : List TextUnit := s.toList.map unitOf

variable {c d : Char} {rest : List Char}

/-! ### Single characters -/

theorem unitOf_plain (h : ¬ c.toNat < 0x20) : unitOf c = .plain c := if_neg fun hc => h hc.1

/-- A character is escaped by a letter, by its number, or not at all. -/
theorem escape_cases (c : Char) :
    (∃ letter, letter ≠ 'u' ∧ 0x20 ≤ letter.toNat ∧ shortEscape? letter = some c ∧
      escape c = ['\\', letter] ∧ unitOf c = .plain c) ∨
    (c.toNat < 0x20 ∧ unitOf c = .escaped c.toNat ∧
      escape c =
        '\\' :: 'u' :: '0' :: '0' :: [Nat.digitChar (c.toNat / 16), Nat.digitChar (c.toNat % 16)]) ∨
    (c ≠ '"' ∧ c ≠ '\\' ∧ ¬ c.toNat < 0x20 ∧ escape c = [c]) := by
  by_cases short : c ∈ ['"', '\\', '\x08', '\x0c', '\n', '\r', '\t']
  · refine .inl ?_
    simp only [List.mem_cons, List.not_mem_nil, or_false] at short
    rcases short with rfl | rfl | rfl | rfl | rfl | rfl | rfl
    · exact ⟨'"', by decide⟩
    · exact ⟨'\\', by decide⟩
    · exact ⟨'b', by decide⟩
    · exact ⟨'f', by decide⟩
    · exact ⟨'n', by decide⟩
    · exact ⟨'r', by decide⟩
    · exact ⟨'t', by decide⟩
  · refine .inr ?_
    simp only [List.mem_cons, List.not_mem_nil, or_false, not_or] at short
    obtain ⟨hquote, hescape, hback, hfeed, hline, hreturn, htab⟩ := short
    rw [escape, if_neg hquote, if_neg hescape, if_neg hback, if_neg hfeed, if_neg hline,
      if_neg hreturn, if_neg htab]
    by_cases control : c.toNat < 0x20
    · have hunit : unitOf c = .escaped c.toNat := if_pos ⟨control, by simp [*]⟩
      exact .inl ⟨control, hunit, if_pos control⟩
    · exact .inr ⟨hquote, hescape, control, if_neg control⟩

theorem hexWord?_digitChar {n : Nat} (h : n < 0x20) :
    hexWord? '0' '0' (Nat.digitChar (n / 16)) (Nat.digitChar (n % 16)) = some n := by
  revert n
  decide

/-- A character is read back as one unit. -/
theorem textUnits?_escape (c : Char) (rest : List Char) :
    textUnits? (escape c ++ rest) =
      (textUnits? rest).map fun (units, after) => (unitOf c :: units, after) := by
  rcases escape_cases c with ⟨letter, hletter, -, hshort, hescape, hunit⟩ |
    ⟨control, hunit, hescape⟩ | ⟨hquote, hslash, control, hescape⟩
  · rw [hescape, hunit, List.cons_append, List.singleton_append,
      textUnits?.eq_4 letter rest fun _ _ _ _ _ hu _ => hletter hu, hshort]
    cases textUnits? rest <;> rfl
  · rw [hescape, hunit]
    simp only [List.cons_append, List.nil_append]
    rw [textUnits?.eq_3, hexWord?_digitChar control]
    cases textUnits? rest <;> rfl
  · rw [hescape, unitOf_plain control, List.singleton_append,
      textUnits?.eq_5 c rest hquote (fun _ _ _ _ _ hc _ => hslash hc) fun _ _ hc _ => hslash hc,
      if_neg control]
    cases textUnits? rest <;> rfl

/-- A unit stands for its character. -/
theorem decodeUnits?_unitOf (c : Char) (units : List TextUnit) :
    decodeUnits? (unitOf c :: units) = (decodeUnits? units).map (c :: ·) := by
  rw [unitOf]
  split
  · rename_i control
    have hplane : c.toNat < 0xD800 ∨ 0xE000 ≤ c.toNat := .inl (by omega)
    rw [decodeUnits?.eq_def]
    refine (if_pos hplane).trans ?_
    rw [Char.ofNat_toNat]
  · rfl

theorem toNat_digitChar_ge {n : Nat} (h : n < 16) : 0x20 ≤ (Nat.digitChar n).toNat := by
  revert n
  decide

/-- No control character is written. -/
theorem toNat_ge_of_mem_escape (h : d ∈ escape c) : 0x20 ≤ d.toNat := by
  have hmark : 0x20 ≤ '\\'.toNat := by decide
  rcases escape_cases c with ⟨letter, -, hletter, -, hescape, -⟩ | ⟨control, -, hescape⟩ |
    ⟨-, -, control, hescape⟩
  · rw [hescape] at h
    simp only [List.mem_cons, List.not_mem_nil, or_false] at h
    rcases h with rfl | rfl
    · exact hmark
    · exact hletter
  · have hhigh : 0x20 ≤ (Nat.digitChar (c.toNat / 16)).toNat := toNat_digitChar_ge (by omega)
    have hlow : 0x20 ≤ (Nat.digitChar (c.toNat % 16)).toNat := toNat_digitChar_ge (by omega)
    rw [hescape] at h
    simp only [List.mem_cons, List.not_mem_nil, or_false] at h
    rcases h with rfl | rfl | rfl | rfl | rfl | rfl
    · exact hmark
    · decide
    · decide
    · decide
    · exact hhigh
    · exact hlow
  · rw [hescape] at h
    obtain rfl := List.mem_singleton.mp h
    exact Nat.le_of_not_lt control

/-! ### Whole texts -/

/-- A text in quotes is read back, and what follows the closing quote is left. -/
theorem textUnits?_quote (s : String) (rest : List Char) :
    textUnits? (s.toList.flatMap escape ++ '"' :: rest) = some (unitsOf s, rest) := by
  rw [unitsOf]
  induction s.toList with
  | nil => exact textUnits?.eq_2 rest
  | cons c text ih => rw [List.flatMap_cons, List.append_assoc, textUnits?_escape, ih]; rfl

/-- The units of a text stand for it. -/
theorem decodeText?_unitsOf (s : String) : decodeText? (unitsOf s) = some s := by
  have hunits : decodeUnits? (unitsOf s) = some s.toList := by
    rw [unitsOf]
    induction s.toList with
    | nil => rfl
    | cons c text ih => rw [List.map_cons, decodeUnits?_unitOf, ih]; rfl
  rw [decodeText?, hunits, Option.map_some, String.ofList_toList]

/-- No control character is written in quotes. -/
theorem toNat_ge_of_mem_quote {s : String} (h : d ∈ quote s) : 0x20 ≤ d.toNat := by
  have hquote : 0x20 ≤ '"'.toNat := by decide
  rw [quote, List.mem_cons, List.mem_append, List.mem_singleton, List.mem_flatMap] at h
  rcases h with rfl | ⟨c, -, hd⟩ | rfl
  · exact hquote
  · exact toNat_ge_of_mem_escape hd
  · exact hquote

end Json

end QueryTelemetry
