import QueryTelemetry.Json.Reading
import QueryTelemetry.Proofs.Runs

/-!
# Numbers in a JSON text

A `NumberText` is read back from the text that it is written as, if what follows does not go on with
the number (`NumberText.IsProper.token?`). Whole numbers and finite doubles are both written in this
way. A whole number of 64 bits keeps its value (`value?_wholeNumber`).
-/

namespace QueryTelemetry

namespace Json

/-! ### Numbers as written -/

namespace NumberText

/-- There are digits where the format demands them, and no zero in front of other digits. -/
structure IsProper (n : NumberText) : Prop where
  whole : n.whole = ['0'] ∨ IsDigits n.whole ∧ n.whole.head? ≠ some '0'
  fraction : ∀ digits, n.fraction = some digits → IsDigits digits
  exponent : ∀ negative digits, n.exponent = some (negative, digits) → IsDigits digits

/-- Whether a number has neither a point nor an exponent. -/
def isWhole (n : NumberText) : Bool := n.fraction.isNone && n.exponent.isNone

/-- The point and the digits behind it. -/
def writeFraction : Option (List Char) → List Char
  | none => []
  | some digits => '.' :: digits

/-- The exponent with its sign. -/
def writeExponent : Option (Bool × List Char) → List Char
  | none => []
  | some (negative, digits) => 'e' :: (if negative then '-' else '+') :: digits

/-- A number without its sign. -/
def writeMagnitude (n : NumberText) : List Char :=
  n.whole ++ (writeFraction n.fraction ++ writeExponent n.exponent)

/-- A number as it is written. -/
def write (n : NumberText) : List Char :=
  if n.negative then '-' :: n.writeMagnitude else n.writeMagnitude

end NumberText

/-- Whether a number would go on with a character. -/
def continuesNumber (c : Char) : Bool := c.isDigit || c == '.' || c == 'e' || c == 'E'

variable {n : NumberText} {rest : List Char}

/-- No digit follows where no number goes on. -/
theorem any_isDigit_of_any_continuesNumber (h : rest.head?.any continuesNumber = false) :
    rest.head?.any Char.isDigit = false :=
  any_head?_of_imp (fun c digit => by simp [continuesNumber, digit]) h

theorem exponentText?_write {exponent : Option (Bool × List Char)}
    (h : ∀ negative digits, exponent = some (negative, digits) → IsDigits digits)
    (hrest : rest.head?.any continuesNumber = false) :
    exponentText? (NumberText.writeExponent exponent ++ rest) = some (exponent, rest) := by
  cases exponent with
  | none =>
    rw [NumberText.writeExponent, List.nil_append]
    cases rest with
    | nil => rfl
    | cons c rest =>
      have hc : ¬ (c = 'e' ∨ c = 'E') := by
        rintro (rfl | rfl) <;> cases hrest
      exact if_neg hc
  | some exponent =>
    obtain ⟨negative, digits⟩ := exponent
    have hdigits := h negative digits rfl
    have hstop := any_isDigit_of_any_continuesNumber hrest
    have htake := takeWhile_append_of_forall hdigits.2 hstop
    have hdrop := dropWhile_append_of_forall hdigits.2 hstop
    cases negative <;>
      simp [exponentText?, NumberText.writeExponent, htake, hdrop, hdigits.1]

theorem fractionText?_write {fraction : Option (List Char)}
    (h : ∀ digits, fraction = some digits → IsDigits digits)
    (hrest : rest.head?.any (fun c => c.isDigit || c == '.') = false) :
    fractionText? (NumberText.writeFraction fraction ++ rest) = some (fraction, rest) := by
  cases fraction with
  | none =>
    rw [NumberText.writeFraction, List.nil_append]
    unfold fractionText?
    split
    · cases hrest
    · rfl
  | some digits =>
    have hdigits := h digits rfl
    have hstop : rest.head?.any Char.isDigit = false :=
      any_head?_of_imp (fun c digit => by simp [digit]) hrest
    have htake := takeWhile_append_of_forall hdigits.2 hstop
    have hdrop := dropWhile_append_of_forall hdigits.2 hstop
    simp [fractionText?, NumberText.writeFraction, htake, hdrop, hdigits.1]

theorem wholeText?_append {whole : List Char}
    (h : whole = ['0'] ∨ IsDigits whole ∧ whole.head? ≠ some '0')
    (hrest : rest.head?.any Char.isDigit = false) :
    wholeText? (whole ++ rest) = some (whole, rest) := by
  rcases h with rfl | ⟨⟨hne, hdigits⟩, hzero⟩
  · rfl
  · cases whole with
    | nil => exact absurd rfl hne
    | cons d more =>
      have hd : d ≠ '0' := by simpa using hzero
      have digit : d.isDigit = true := hdigits d List.mem_cons_self
      have hmore : ∀ c ∈ more, c.isDigit = true := fun c hc => hdigits c (List.mem_cons_of_mem d hc)
      have htake := takeWhile_append_of_forall hmore hrest
      have hdrop := dropWhile_append_of_forall hmore hrest
      rw [List.cons_append, wholeText?.eq_2 d _ hd, if_pos digit, htake, hdrop]

/-- A proper number is read back without its sign. -/
theorem numberText?_write (h : n.IsProper) (hrest : rest.head?.any continuesNumber = false) :
    numberText? n.negative (n.writeMagnitude ++ rest) = some (n, rest) := by
  have hexponent := exponentText?_write h.exponent hrest
  have hfraction : fractionText? (NumberText.writeFraction n.fraction ++
      (NumberText.writeExponent n.exponent ++ rest)) =
        some (n.fraction, NumberText.writeExponent n.exponent ++ rest) := by
    refine fractionText?_write h.fraction ?_
    cases n.exponent with
    | none =>
      refine any_head?_of_imp (fun c hc => ?_) hrest
      rw [continuesNumber, hc]
      rfl
    | some exponent => rfl
  have hwhole : wholeText? (n.whole ++ (NumberText.writeFraction n.fraction ++
      (NumberText.writeExponent n.exponent ++ rest))) =
        some (n.whole, NumberText.writeFraction n.fraction ++
          (NumberText.writeExponent n.exponent ++ rest)) := by
    refine wholeText?_append h.whole ?_
    cases n.fraction with
    | none =>
      cases n.exponent with
      | none => exact any_isDigit_of_any_continuesNumber hrest
      | some exponent => rfl
    | some digits => rfl
  rw [numberText?, NumberText.writeMagnitude, List.append_assoc, List.append_assoc, hwhole]
  simp only [hfraction, hexponent]

/-- A proper number begins with a digit, apart from its sign. -/
theorem NumberText.IsProper.exists_eq_cons (h : n.IsProper) :
    ∃ first more, n.writeMagnitude = first :: more ∧ first.isDigit = true := by
  rcases h.whole with hwhole | ⟨⟨hne, hdigits⟩, -⟩
  · exact ⟨'0', _, by rw [NumberText.writeMagnitude, hwhole]; rfl, rfl⟩
  · obtain ⟨first, more, hwhole⟩ := List.exists_cons_of_ne_nil hne
    refine ⟨first, _, by rw [NumberText.writeMagnitude, hwhole]; rfl, hdigits first ?_⟩
    rw [hwhole]
    exact List.mem_cons_self

/-- A digit begins nothing but a number. -/
theorem token?_of_isDigit {first : Char} (digit : first.isDigit = true) :
    token? first rest = (numberText? false (first :: rest)).map
      fun (number, after) => (.number number, after) := by
  have hother : ∀ c : Char, c.isDigit = false → first ≠ c := fun _ => ne_of_isDigit digit
  have hmark : mark? first = none := by
    simp [mark?, hother '[', hother ']', hother '{', hother '}', hother ',', hother ':']
  simp [token?, hmark, hother '"', hother '-', digit]

/-- A proper number is one token. -/
theorem NumberText.IsProper.token? (h : n.IsProper)
    (hrest : rest.head?.any continuesNumber = false) :
    ∃ first more, n.write = first :: more ∧ isGap first = false ∧
      Json.token? first (more ++ rest) = some (.number n, rest) := by
  have hread := numberText?_write h hrest
  cases hsign : n.negative with
  | true =>
    refine ⟨'-', n.writeMagnitude, by rw [NumberText.write, hsign]; rfl, rfl, ?_⟩
    rw [hsign] at hread
    change (numberText? true (n.writeMagnitude ++ rest)).map _ = _
    rw [hread]
    rfl
  | false =>
    obtain ⟨first, more, hmagnitude, digit⟩ := h.exists_eq_cons
    have hgap : isGap first = false := by
      have hother : ∀ c : Char, c.isDigit = false → first ≠ c := fun _ => ne_of_isDigit digit
      simp [isGap, hother ' ', hother '\t', hother '\n', hother '\r']
    refine ⟨first, more, by rw [NumberText.write, hsign]; exact hmagnitude, hgap, ?_⟩
    rw [hsign, hmagnitude, List.cons_append] at hread
    rw [token?_of_isDigit digit, hread]
    rfl

/-! ### Whole numbers -/

/-- A whole number in decimal notation. -/
def wholeNumber (k : Int) : NumberText := ⟨k < 0, Nat.toDigits 10 k.natAbs, none, none⟩

theorem isProper_wholeNumber (k : Int) : (wholeNumber k).IsProper := by
  refine ⟨?_, fun _ h => (nomatch h), fun _ _ h => (nomatch h)⟩
  rcases Nat.eq_zero_or_pos k.natAbs with hzero | hpos
  · refine .inl ?_
    rw [wholeNumber, hzero, Nat.toDigits_zero]
  · exact .inr ⟨isDigits_toDigits _, head?_toDigits_ne hpos⟩

theorem write_wholeNumber (k : Int) : (wholeNumber k).write = writeWhole k := by
  by_cases hneg : k < 0 <;>
    simp [NumberText.write, NumberText.writeMagnitude, NumberText.writeFraction,
      NumberText.writeExponent, writeWhole, wholeNumber, hneg]

theorem digitsValue_toDigits (k : Nat) : Decimal.digitsValue 0 (Nat.toDigits 10 k) = k := by
  rw [Decimal.digitsValue, ← Nat.ofDigitChars_eq_foldl, Nat.ofDigitChars_ten_toDigits]

/-- A whole number of 64 bits is read as what it is. -/
theorem value?_wholeNumber {k : Int} (hlow : -2 ^ 63 ≤ k) (hhigh : k < 2 ^ 64) :
    (wholeNumber k).value? = some (.whole k) := by
  simp only [NumberText.value?, wholeNumber, digitsValue_toDigits]
  by_cases hneg : k < 0
  · have hvalue : -(k.natAbs : Int) = k := by omega
    rw [if_neg (by simp [hneg]), if_pos, hvalue]
    simp only [hneg, Option.isNone_none, Bool.and_self, decide_true, Bool.true_and,
      Bool.and_eq_true, decide_eq_true_eq]
    omega
  · have hvalue : (k.natAbs : Int) = k := by omega
    rw [if_pos, hvalue]
    simp only [hneg, Option.isNone_none, Bool.and_self, decide_false, Bool.not_false,
      Bool.true_and, decide_eq_true_eq]
    omega

end Json

end QueryTelemetry
