import QueryTelemetry.Proofs.Redaction.Idempotence

/-!
# Words of a statement and words that are written

The scan decides by the text it has written whether a digit begins a number or is part of a word.
`Passes` follows the scan as `Reaches` does and also keeps what it has gone past, with a gap for
each string, quoted identifier and comment, so that the word which goes on in the statement is known
(`runStart`). The two words agree (`InStep`): where the scan has written a word, the statement has
one too, which does not begin with a digit. The exception are words that a number runs into, because
the number is replaced and the word stays (`ContinuesNumber`).
-/

namespace QueryTelemetry

namespace Redaction

/-! ### What the scan has gone past -/

/-- Whether the lexeme at the front has an inner text: a string, a quoted identifier or a comment,
with the delimiters that the reader goes by. -/
def encloses (before : Before) (first : Char) (rest : List Char) : Bool :=
  first == '\'' || first == '"' || (first == '-' && rest.head? == some '-') ||
    (first == '/' && rest.head? == some '*') ||
    (first == '$' && !before.inWord && !rest.head?.any Char.isDigit &&
      (rest.dropWhile isTagChar).head? == some '$')

/-- What is kept of a lexeme, last character first: its characters, or a gap if it has an inner
text. -/
def trace (before : Before) (first : Char) (taken after : List Char) : List (Option Char) :=
  if encloses before first (taken ++ after) then [none] else (first :: taken).reverse.map some

/-- On its way through `text` the scan looks for a lexeme at the front of `rest`, when it has gone
past `passed` and written `written`, both last character first. Digits within words are kept. -/
inductive Passes (text : List Char) : List (Option Char) → List Char → List Char → Prop
  | start : Passes text [] [] text
  | step {passed : List (Option Char)} {written taken after : List Char} {first : Char}
      {piece : Piece} :
      Passes text passed written (first :: (taken ++ after)) →
      Reads false (Before.ofReversed written) first (taken ++ after) piece after →
      Passes text (trace (Before.ofReversed written) first taken after ++ passed)
        (piece.appendTo written) after

/-- The first character of the word that a statement ends in, given last character first. -/
def runStart : List (Option Char) → Option Char
  | some c :: passed => if isWordChar c then (runStart passed).or (some c) else none
  | _ => none

/-- What has been passed ends in a number, which is replaced, and characters of a word behind it. -/
def ContinuesNumber (text : List Char) (passed : List (Option Char)) (rest : List Char) : Prop :=
  ∃ earlier written first number word,
    Passes text earlier written (first :: (number ++ (word ++ rest))) ∧
    first.isDigit = true ∧ (Before.ofReversed written).inWord = false ∧
    afterNumber (first :: (number ++ (word ++ rest))) = word ++ rest ∧
    (∀ c ∈ word, isWordChar c = true) ∧
    passed = word.reverse.map some ++ ((first :: number).reverse.map some ++ earlier)

variable {text written rest after taken word : List Char} {passed : List (Option Char)}
  {before : Before} {first c : Char} {piece : Piece}

/-- The place that the scan comes to behind a number of lexemes: what it has gone past, what it has
written, and what is still to be read. -/
def passage? (text : List Char) : Nat → Option (List (Option Char) × List Char × List Char)
  | 0 => some ([], [], text)
  | n + 1 =>
    match passage? text n with
    | some (passed, written, first :: rest) =>
      match lexeme false (Before.ofReversed written) first rest with
      | .ok (piece, after) =>
        let taken := rest.take (rest.length - after.length)
        some (trace (Before.ofReversed written) first taken after ++ passed,
          piece.appendTo written, after)
      | .error _ => none
    | _ => none

theorem passage?_succ {n : Nat}
    (h : passage? text n = some (passed, written, first :: (taken ++ after)))
    (hread : Reads false (Before.ofReversed written) first (taken ++ after) piece after) :
    passage? text (n + 1) =
      some (trace (Before.ofReversed written) first taken after ++ passed,
        piece.appendTo written, after) := by
  simp [passage?, h, lexeme_of_reads hread]

theorem exists_of_passage?_succ {n : Nat}
    (h : passage? text (n + 1) = some (passed, written, after)) :
    ∃ passed' written' first taken piece,
      passage? text n = some (passed', written', first :: (taken ++ after)) ∧
      Reads false (Before.ofReversed written') first (taken ++ after) piece after ∧
      passed = trace (Before.ofReversed written') first taken after ++ passed' ∧
      written = piece.appendTo written' := by
  rw [passage?] at h
  split at h
  · rename_i passed' written' first rest hn
    split at h
    · rename_i piece after' hlex
      obtain ⟨rfl, rfl, rfl⟩ := by simpa using h
      obtain ⟨taken, rfl⟩ := suffix_of_lexeme hlex
      exact ⟨passed', written', first, taken, piece, hn, reads_of_lexeme hlex, by simp, rfl⟩
    · cases h
  · cases h

/-- The places that the scan comes to can be computed. -/
theorem passes_iff_exists_passage? :
    Passes text passed written rest ↔ ∃ n, passage? text n = some (passed, written, rest) := by
  constructor
  · intro h
    induction h with
    | start => exact ⟨0, rfl⟩
    | step _ hread ih =>
      obtain ⟨n, hn⟩ := ih
      exact ⟨n + 1, passage?_succ hn hread⟩
  · rintro ⟨n, h⟩
    induction n generalizing passed written rest with
    | zero =>
      obtain ⟨rfl, rfl, rfl⟩ : [] = passed ∧ [] = written ∧ text = rest := by
        simpa [passage?] using h
      exact .start
    | succ n ih =>
      obtain ⟨_, _, _, _, _, hn, hread, rfl, rfl⟩ := exists_of_passage?_succ h
      exact (ih hn).step hread

theorem Passes.reaches (h : Passes text passed written rest) : Reaches false text written rest := by
  induction h with
  | start => exact .start
  | step _ hread ih => exact ih.step hread

theorem ContinuesNumber.extend (h : ContinuesNumber text passed (word ++ rest))
    (hword : ∀ c ∈ word, isWordChar c = true) :
    ContinuesNumber text (word.reverse.map some ++ passed) rest := by
  obtain ⟨earlier, written, first, number, front, hpassed, digit, hout, hafter, hfront, rfl⟩ := h
  refine ⟨earlier, written, first, number, front ++ word, ?_, digit, hout, ?_, fun c hc => ?_, ?_⟩
  · rwa [List.append_assoc]
  · rwa [List.append_assoc]
  · rcases List.mem_append.mp hc with hc | hc
    · exact hfront c hc
    · exact hword c hc
  · simp

theorem trace_of_plain (h : encloses before first (taken ++ after) = false) :
    trace before first taken after = (first :: taken).reverse.map some := by
  rw [trace, if_neg (by simp [h])]

/-- Inner texts begin with a few characters only. -/
theorem encloses_of_ne (hstring : first ≠ '\'') (hidentifier : first ≠ '"') (hdash : first ≠ '-')
    (hslash : first ≠ '/') (hdollar : first ≠ '$') : encloses before first rest = false := by
  simp [encloses, hstring, hidentifier, hdash, hslash, hdollar]

theorem encloses_of_isDigit (digit : first.isDigit = true) :
    encloses before first rest = false := by
  have other : ∀ c : Char, c.isDigit = false → first ≠ c := fun _ => ne_of_isDigit digit
  exact encloses_of_ne (other _ rfl) (other _ rfl) (other _ rfl) (other _ rfl) (other _ rfl)

/-! ### Words in step -/

/-- What has been passed ends in a word exactly if what has been written does, and that word does
not begin with a digit. -/
structure InStep (passed : List (Option Char)) (inWord : Bool) : Prop where
  outside : inWord = false → runStart passed = none
  inside : inWord = true → ∃ c, runStart passed = some c ∧ c.isDigit = false

theorem runStart_cons_of_isWordChar (hc : isWordChar c = true) :
    runStart (some c :: passed) = (runStart passed).or (some c) := by
  rw [runStart, if_pos hc]

namespace InStep

theorem gap : InStep (none :: passed) false :=
  ⟨fun _ => rfl, nofun⟩

theorem separator (hc : isWordChar c = false) : InStep (some c :: passed) false := by
  refine ⟨fun _ => ?_, nofun⟩
  rw [runStart, if_neg (by simp [hc])]

/-- A word goes on, or one begins with another character than a digit. -/
theorem wordChar {inWord : Bool} (h : InStep passed inWord) (hc : isWordChar c = true)
    (hdigit : inWord = false → c.isDigit = false) : InStep (some c :: passed) true := by
  refine ⟨nofun, fun _ => ?_⟩
  rw [runStart_cons_of_isWordChar hc]
  cases inWord with
  | false => exact ⟨c, by rw [h.outside rfl]; rfl, hdigit rfl⟩
  | true =>
    obtain ⟨d, hd, hdigit⟩ := h.inside rfl
    exact ⟨d, by rw [hd]; rfl, hdigit⟩

theorem wordChars (h : InStep passed true) (hword : ∀ c ∈ word, isWordChar c = true) :
    InStep (word.reverse.map some ++ passed) true := by
  induction word generalizing passed with
  | nil => exact h
  | cons c word ih =>
    have hc : InStep (some c :: passed) true := h.wordChar (hword c List.mem_cons_self) nofun
    have := ih hc fun d hd => hword d (List.mem_cons_of_mem c hd)
    simpa using this

end InStep

theorem inWord_appendTo_blank (written : List Char) :
    (Before.ofReversed (Piece.blank.appendTo written)).inWord = false := by
  rw [Piece.appendTo]
  split
  · rename_i hgap
    cases written with
    | nil => rfl
    | cons c written =>
      obtain rfl : c = ' ' := by simpa using hgap
      rfl
  · rfl

/-- The blanks lie in the gaps between the ranges of letters and digits. -/
private theorem gaps_of_alphanumericRanges :
    ∀ range ∈ Text.alphanumericRanges, 0xA0 < range.1 ∧ range.2 < 0x1680 ∨
      0x1680 < range.1 ∧ range.2 < 0x2000 ∨ 0x205F < range.1 ∧ range.2 < 0x3000 ∨
      0x3000 < range.1 := by
  decide +kernel

private theorem toNat_of_isAlphanum (h : c.isAlphanum = true) :
    0x30 ≤ c.toNat ∧ c.toNat ≤ 0x7A := by
  have hranges : c.isAlphanum = (decide (c.val ≥ 65 ∧ c.val ≤ 90) ||
      (c.val ≥ 97 && c.val ≤ 122) || (c.val ≥ 48 && c.val ≤ 57)) := rfl
  rw [hranges] at h
  simp only [Bool.or_eq_true, Bool.and_eq_true, decide_eq_true_eq, ge_iff_le,
    UInt32.le_iff_toNat_le, UInt32.reduceToNat] at h
  rw [Char.toNat]
  omega

private theorem isAlphanumeric_eq_false_of_isBlank (h : Text.isBlank c = true) :
    Text.isAlphanumeric c = false := by
  simp only [Text.isBlank, Bool.or_eq_true, Bool.and_eq_true, decide_eq_true_eq, beq_iff_eq] at h
  rw [Bool.eq_false_iff]
  intro halphanumeric
  simp only [Text.isAlphanumeric, Bool.or_eq_true, Bool.and_eq_true, decide_eq_true_eq,
    List.any_eq_true] at halphanumeric
  rcases halphanumeric with ascii | ⟨hbeyond, range, hrange, hlow, hhigh⟩
  · have := toNat_of_isAlphanum ascii
    omega
  · have := gaps_of_alphanumericRanges range hrange
    omega

/-- Blanks separate words. -/
theorem isWordChar_of_isBlank (h : Text.isBlank c = true) : isWordChar c = false := by
  have hunderscore : c ≠ '_' := ne_of_isBlank h (by decide)
  have hdollar : c ≠ '$' := ne_of_isBlank h (by decide)
  simp [isWordChar, isAlphanumeric_eq_false_of_isBlank h, hunderscore, hdollar]

/-- The quotes of an identifier separate words. -/
theorem inWord_appendTo_quoted {body : List Char}
    (h : afterQuote? '"' false (body ++ after) = some after) (written : List Char) :
    (Before.ofReversed ((Piece.verbatim ('"' :: body)).appendTo written)).inWord = false := by
  obtain ⟨body', hbody, hlast, -⟩ := @exists_settled_of_afterQuote? false _ _ h
  obtain rfl := List.append_cancel_right hbody
  obtain ⟨front, rfl⟩ := List.getLast?_eq_some_iff.mp hlast
  simp only [Piece.appendTo, List.reverse_cons, List.reverse_append, List.append_assoc]
  rfl

/-- What is written ends in a word behind characters of a word. -/
theorem inWord_appendTo_word (hfirst : isWordChar first = true)
    (htaken : ∀ c ∈ taken, isWordChar c = true) (written : List Char) :
    (Before.ofReversed ((Piece.verbatim (first :: taken)).appendTo written)).inWord = true := by
  have hall : ∀ c ∈ first :: taken, isWordChar c = true := by simpa using ⟨hfirst, htaken⟩
  rcases List.eq_nil_or_concat (first :: taken) with hnil | ⟨front, c, hconcat⟩
  · cases hnil
  · rw [hconcat] at hall ⊢
    have hc : isWordChar c = true := hall c (by simp)
    simpa [Piece.appendTo, Before.ofReversed] using hc

/-! ### The scan keeps words in step -/

/-- Characters of a word that are written as they stand extend the word in the statement, whether it
goes on behind a number or not. -/
theorem inStep_of_word (hkept : encloses before first (taken ++ after) = false)
    (hfirst : isWordChar first = true) (htaken : ∀ c ∈ taken, isWordChar c = true)
    (hdigit : (Before.ofReversed written).inWord = false → first.isDigit = false)
    (h : ContinuesNumber text passed (first :: (taken ++ after)) ∨
      InStep passed (Before.ofReversed written).inWord) :
    ContinuesNumber text (trace before first taken after ++ passed) after ∨
      InStep (trace before first taken after ++ passed)
        (Before.ofReversed ((Piece.verbatim (first :: taken)).appendTo written)).inWord := by
  rw [inWord_appendTo_word hfirst htaken, trace_of_plain hkept]
  rcases h with h | h
  · have hword : ∀ c ∈ first :: taken, isWordChar c = true := by simpa using ⟨hfirst, htaken⟩
    exact .inl (ContinuesNumber.extend h hword)
  · have hword := (h.wordChar hfirst hdigit).wordChars htaken
    exact .inr (by simpa using hword)

/-- Behind a lexeme the words are in step or a number goes on, if it was so before the lexeme. -/
theorem inStep_of_reads (hpassed : Passes text passed written (first :: (taken ++ after)))
    (hread : Reads false (Before.ofReversed written) first (taken ++ after) piece after)
    (h : ContinuesNumber text passed (first :: (taken ++ after)) ∨
      InStep passed (Before.ofReversed written).inWord) :
    ContinuesNumber text (trace (Before.ofReversed written) first taken after ++ passed) after ∨
      InStep (trace (Before.ofReversed written) first taken after ++ passed)
        (Before.ofReversed (piece.appendTo written)).inWord := by
  generalize hrest : taken ++ after = rest at hread
  cases hread with
  | stringLiteral closed =>
    have hout : ∀ mark : Bool, (Before.ofReversed (Piece.appendTo
        (if mark = true then .placeholderForMark else .placeholder) written)).inWord = false := by
      rintro (_ | _) <;> rfl
    rw [hout]
    exact .inr .gap
  | quotedIdentifier closed =>
    rw [inWord_appendTo_quoted closed]
    exact .inr .gap
  | lineComment next =>
    rw [inWord_appendTo_blank, trace, hrest, if_pos (by simp [encloses, next])]
    exact .inr .gap
  | blockComment next closed =>
    rw [inWord_appendTo_blank, trace, hrest, if_pos (by simp [encloses, next])]
    exact .inr .gap
  | dollarQuoted hword digit opened closed =>
    rw [trace, hrest, if_pos (by simp [encloses, hword, digit, opened])]
    exact .inr .gap
  | number digit hword =>
    have hafter : afterNumber (first :: (taken ++ afterNumber (first :: rest))) =
        afterNumber (first :: rest) := by rw [hrest]
    have hkept : encloses (Before.ofReversed written) first
        (taken ++ afterNumber (first :: rest)) = false := encloses_of_isDigit digit
    rw [trace_of_plain hkept]
    exact .inl ⟨passed, written, first, taken, [], hpassed, digit, hword, hafter, nofun, rfl⟩
  | digitsInWord digit hword hreplace => cases hreplace
  | parameter hword digit =>
    obtain rfl : taken = rest.takeWhile Char.isDigit :=
      List.append_cancel_right (hrest.trans List.takeWhile_append_dropWhile.symm)
    have htaken : ∀ d ∈ rest.takeWhile Char.isDigit, isWordChar d = true :=
      fun d hd => isWordChar_of_isDigit (isDigit_of_mem_takeWhile hd)
    exact inStep_of_word (by simp [encloses, hrest, digit]) rfl htaken (fun _ => rfl) h
  | dollar hword digit unopened =>
    obtain rfl : taken = [] := List.append_left_eq_self.mp hrest
    have hkept : encloses (Before.ofReversed written) '$' ([] ++ after) = false := by
      simpa [encloses] using fun _ _ => unopened
    exact inStep_of_word hkept rfl (by simp) (fun _ => rfl) h
  | digitInWord digit hword hkeep =>
    obtain rfl : taken = [] := List.append_left_eq_self.mp hrest
    refine inStep_of_word (encloses_of_isDigit digit) (isWordChar_of_isDigit digit) (by simp)
      (fun hout => ?_) h
    rw [hword] at hout
    cases hout
  | blank hblank =>
    obtain rfl : taken = [] := List.append_left_eq_self.mp hrest
    have other : ∀ c : Char, Text.isBlank c = false → first ≠ c := fun _ => ne_of_isBlank hblank
    rw [inWord_appendTo_blank, trace_of_plain]
    · exact .inr (.separator (isWordChar_of_isBlank hblank))
    · exact encloses_of_ne (other _ (by decide)) (other _ (by decide)) (other _ (by decide))
        (other _ (by decide)) (other _ (by decide))
  | other hstring hidentifier hdash hslash hdollar digit hblank =>
    obtain rfl : taken = [] := List.append_left_eq_self.mp hrest
    have hkept : encloses (Before.ofReversed written) first ([] ++ after) = false := by
      have hdollar' : first = '$' → (Before.ofReversed written).inWord ≠ false :=
        fun hc => by simp [hdollar hc]
      simp only [encloses, List.nil_append]
      grind
    by_cases hfirst : isWordChar first = true
    · exact inStep_of_word hkept hfirst (by simp) (fun _ => digit) h
    · have hseparator : isWordChar first = false := by simpa using hfirst
      have hout : (Before.ofReversed ((Piece.verbatim [first]).appendTo written)).inWord = false :=
        hseparator
      rw [hout, trace_of_plain hkept]
      exact .inr (.separator hseparator)

/-- All along its way the scan keeps the words in step, or goes on behind a number. -/
theorem Passes.inStep (h : Passes text passed written rest) :
    ContinuesNumber text passed rest ∨ InStep passed (Before.ofReversed written).inWord := by
  induction h with
  | start => exact .inr ⟨fun _ => rfl, nofun⟩
  | step hpassed hread ih => exact inStep_of_reads hpassed hread ih

/-- Where a digit is kept as part of a word, that word of the statement begins with another
character than a digit, unless it goes on behind a number. -/
theorem Passes.exists_runStart {d : Char} (h : Passes text passed written (d :: rest))
    (digit : d.isDigit = true) (hword : (Before.ofReversed written).inWord = true) :
    ∃ c, runStart (some d :: passed) = some c ∧
      (c.isDigit = true → ContinuesNumber text passed (d :: rest)) := by
  rw [runStart_cons_of_isWordChar (isWordChar_of_isDigit digit)]
  rcases h.inStep with hnumber | hstep
  · cases runStart passed with
    | none => exact ⟨d, rfl, fun _ => hnumber⟩
    | some c => exact ⟨c, rfl, fun _ => hnumber⟩
  · obtain ⟨c, hstart, hc⟩ := hstep.inside hword
    refine ⟨c, by rw [hstart]; rfl, fun hdigit => ?_⟩
    rw [hc] at hdigit
    cases hdigit

end Redaction

end QueryTelemetry
