import QueryTelemetry.Proofs.Runs
import QueryTelemetry.Redaction

/-!
# How a statement is read

`Reads` lists the ways in which a lexeme can stand at the front of a text, each with what is
written for it and what follows, and the reader finds exactly these (`reads_of_lexeme`,
`lexeme_of_reads`). `Reaches` follows the scan from the start of a statement to the places where it
looks for the next lexeme.

What is left of the scan depends on the text written so far and on the text still to be read alone
(`Reaches.scan_eq`). The length of the statement matters for the position in a failure only, and
not even there if positions are counted from the end (`mapError_fromEnd_scan`).
-/

namespace QueryTelemetry

namespace Redaction

/-! ### Kinds of characters -/

theorem isDigit_eq_false_of_isBlank {c : Char} (h : Text.isBlank c = true) :
    c.isDigit = false := by
  simp only [Text.isBlank, Bool.or_eq_true, Bool.and_eq_true, decide_eq_true_eq, beq_iff_eq] at h
  rw [Bool.eq_false_iff]
  intro digit
  simp only [Char.isDigit, Bool.and_eq_true, decide_eq_true_eq, ge_iff_le, UInt32.le_iff_toNat_le,
    Char.reduceVal, UInt32.reduceToNat] at digit
  simp only [Char.toNat] at h
  omega

theorem ne_of_isBlank {c d : Char} (hc : Text.isBlank c = true) (hd : Text.isBlank d = false) :
    c ≠ d := by
  rintro rfl
  rw [hc] at hd
  exact Bool.noConfusion hd

/-! ### Lexemes -/

/-- The lexeme that starts with `first` can be read, `piece` is written for it, and `after`
follows. -/
inductive Reads (replaceDigits : Bool) (before : Before) :
    Char → List Char → Piece → List Char → Prop
  | stringLiteral {rest after : List Char} :
      afterQuote? '\'' before.escapeMark rest = some after →
      Reads replaceDigits before '\'' rest
        (if before.escapeMark then .placeholderForMark else .placeholder) after
  | quotedIdentifier {body after : List Char} :
      afterQuote? '"' false (body ++ after) = some after →
      Reads replaceDigits before '"' (body ++ after) (.verbatim ('"' :: body)) after
  | lineComment {rest : List Char} :
      rest.head? = some '-' →
      Reads replaceDigits before '-' rest .blank (rest.dropWhile (· != '\n'))
  | blockComment {rest after : List Char} :
      rest.head? = some '*' → Text.afterFirst? ['*', '/'] (rest.drop 1) = some after →
      Reads replaceDigits before '/' rest .blank after
  | parameter {rest : List Char} :
      before.inWord = false → rest.head?.any Char.isDigit = true →
      Reads replaceDigits before '$' rest (.verbatim ('$' :: rest.takeWhile Char.isDigit))
        (rest.dropWhile Char.isDigit)
  | dollarQuoted {rest body after : List Char} :
      before.inWord = false → rest.head?.any Char.isDigit = false →
      rest.dropWhile isTagChar = '$' :: body →
      Text.afterFirst? ('$' :: rest.takeWhile isTagChar ++ ['$']) body = some after →
      Reads replaceDigits before '$' rest .placeholder after
  | dollar {rest : List Char} :
      before.inWord = false → rest.head?.any Char.isDigit = false →
      (rest.dropWhile isTagChar).head? ≠ some '$' →
      Reads replaceDigits before '$' rest (.verbatim ['$']) rest
  | number {first : Char} {rest : List Char} :
      first.isDigit = true → before.inWord = false →
      Reads replaceDigits before first rest .placeholder (afterNumber (first :: rest))
  | digitsInWord {first : Char} {rest : List Char} :
      first.isDigit = true → before.inWord = true → replaceDigits = true →
      Reads replaceDigits before first rest .placeholder (rest.dropWhile Char.isDigit)
  | digitInWord {first : Char} {rest : List Char} :
      first.isDigit = true → before.inWord = true → replaceDigits = false →
      Reads replaceDigits before first rest (.verbatim [first]) rest
  | blank {first : Char} {rest : List Char} :
      Text.isBlank first = true → Reads replaceDigits before first rest .blank rest
  | other {first : Char} {rest : List Char} :
      first ≠ '\'' → first ≠ '"' → (first = '-' → rest.head? ≠ some '-') →
      (first = '/' → rest.head? ≠ some '*') → (first = '$' → before.inWord = true) →
      first.isDigit = false → Text.isBlank first = false →
      Reads replaceDigits before first rest (.verbatim [first]) rest

variable {replaceDigits : Bool} {before : Before} {first : Char} {rest after : List Char}
  {piece : Piece}

/-- A dollar outside a word begins a parameter, begins a dollar-quoted string or stands for
itself. -/
private theorem reads_of_dollarLexeme (hword : before.inWord = false)
    (h : dollarLexeme rest = .ok (piece, after)) :
    Reads replaceDigits before '$' rest piece after := by
  unfold dollarLexeme at h
  split at h
  · rename_i digit
    obtain ⟨rfl, rfl⟩ := by simpa using h
    exact .parameter hword digit
  · rename_i digit
    have digit : rest.head?.any Char.isDigit = false := by simpa using digit
    split at h
    · rename_i body opened
      split at h
      · rename_i closed
        obtain ⟨rfl, rfl⟩ := by simpa using h
        exact .dollarQuoted hword digit opened closed
      · simp at h
    · rename_i unopened
      obtain ⟨rfl, rfl⟩ := by simpa using h
      refine .dollar hword digit fun opened => ?_
      obtain ⟨body, hbody⟩ := List.head?_eq_some_iff.mp opened
      exact unopened body hbody

/-- Digits outside a word are a number; within a word they are replaced or kept. -/
private theorem reads_digitLexeme (digit : first.isDigit = true) :
    Reads replaceDigits before first rest (digitLexeme replaceDigits before.inWord first rest).1
      (digitLexeme replaceDigits before.inWord first rest).2 := by
  unfold digitLexeme
  split
  · rename_i outside
    exact .number digit (by simpa using outside)
  · rename_i inside
    have inside : before.inWord = true := by simpa using inside
    split
    · exact .digitsInWord digit inside ‹_›
    · exact .digitInWord digit inside (by simpa using ‹¬replaceDigits = true›)

/-- What the reader finds is a lexeme. -/
theorem reads_of_lexeme (h : lexeme replaceDigits before first rest = .ok (piece, after)) :
    Reads replaceDigits before first rest piece after := by
  unfold lexeme at h
  split at h
  · subst first
    split at h
    · rename_i closed
      obtain ⟨rfl, rfl⟩ := by simpa using h
      exact .stringLiteral closed
    · simp at h
  · split at h
    · subst first
      split at h
      · rename_i closed
        obtain ⟨rfl, rfl⟩ := by simpa using h
        obtain ⟨body, rfl⟩ := suffix_of_afterQuote? closed
        simpa using Reads.quotedIdentifier closed
      · simp at h
    · split at h
      · rename_i dashes
        obtain ⟨rfl, next⟩ := dashes
        obtain ⟨rfl, rfl⟩ := by simpa using h
        exact .lineComment next
      · split at h
        · rename_i opened
          obtain ⟨rfl, next⟩ := opened
          split at h
          · rename_i closed
            obtain ⟨rfl, rfl⟩ := by simpa using h
            exact .blockComment next closed
          · simp at h
        · split at h
          · rename_i outside
            obtain ⟨rfl, hword⟩ := outside
            exact reads_of_dollarLexeme hword h
          · split at h
            · rename_i digit
              obtain ⟨rfl, rfl⟩ := Prod.ext_iff.mp (Except.ok.inj h)
              exact reads_digitLexeme digit
            · split at h
              · obtain ⟨rfl, rfl⟩ := by simpa using h
                exact .blank ‹_›
              · obtain ⟨rfl, rfl⟩ := by simpa using h
                refine .other ‹_› ‹_› ?_ ?_ ?_ (by simpa using ‹¬first.isDigit = true›)
                  (by simpa using ‹¬Text.isBlank first = true›) <;> grind

private theorem lexeme_of_isDigit (digit : first.isDigit = true) :
    lexeme replaceDigits before first rest =
      .ok (digitLexeme replaceDigits before.inWord first rest) := by
  have other : ∀ c : Char, c.isDigit = false → first ≠ c := fun _ => ne_of_isDigit digit
  simp [lexeme, other '\'', other '"', other '-', other '/', other '$', digit]

private theorem lexeme_of_isBlank (hblank : Text.isBlank first = true) :
    lexeme replaceDigits before first rest = .ok (.blank, rest) := by
  have other : ∀ c : Char, Text.isBlank c = false → first ≠ c := fun _ => ne_of_isBlank hblank
  have digit := isDigit_eq_false_of_isBlank hblank
  simp [lexeme, other '\'' (by decide), other '"' (by decide), other '-' (by decide),
    other '/' (by decide), other '$' (by decide), digit, hblank]

/-- Every lexeme is found. -/
theorem lexeme_of_reads (h : Reads replaceDigits before first rest piece after) :
    lexeme replaceDigits before first rest = .ok (piece, after) := by
  cases h with
  | stringLiteral closed => simp [lexeme, closed]
  | quotedIdentifier closed => simp [lexeme, closed]
  | lineComment next => simp [lexeme, next]
  | blockComment next closed =>
    rw [List.drop_one] at closed
    simp [lexeme, next, closed]
  | parameter hword digit => simp [lexeme, hword, dollarLexeme, digit]
  | dollarQuoted hword digit opened closed =>
    rw [List.cons_append] at closed
    simp [lexeme, hword, dollarLexeme, digit, opened, closed]
  | dollar hword digit unopened =>
    have hbody : ∀ body, rest.dropWhile isTagChar ≠ '$' :: body :=
      fun body hbody => unopened (by rw [hbody, List.head?_cons])
    simp only [lexeme, hword, dollarLexeme, digit]
    grind
  | number digit hword => simp [lexeme_of_isDigit digit, digitLexeme, hword]
  | digitsInWord digit hword hreplace =>
    simp [lexeme_of_isDigit digit, digitLexeme, hword, hreplace]
  | digitInWord digit hword hkeep => simp [lexeme_of_isDigit digit, digitLexeme, hword, hkeep]
  | blank hblank => exact lexeme_of_isBlank hblank
  | other hstring hidentifier hdash hslash hdollar digit hblank =>
    rw [lexeme, if_neg hstring, if_neg hidentifier, if_neg fun h => hdash h.1 h.2,
      if_neg fun h => hslash h.1 h.2, if_neg (by rintro ⟨rfl, h⟩; simp [hdollar rfl] at h),
      if_neg (by simp [digit]), if_neg (by simp [hblank])]

/-! ### The scan -/

variable {written text : List Char} {total : Nat}

@[simp] theorem scan_nil : scan replaceDigits total written [] = .ok written := by
  rw [scan]

/-- The scan goes on behind a lexeme. -/
theorem scan_cons_of_reads
    (h : Reads replaceDigits (Before.ofReversed written) first rest piece after) :
    scan replaceDigits total written (first :: rest) =
      scan replaceDigits total (piece.appendTo written) after := by
  rw [scan]
  split
  · rename_i kind hkind
    rw [lexeme_of_reads h] at hkind
    cases hkind
  · rename_i piece' after' hread
    rw [lexeme_of_reads h] at hread
    cases hread
    rfl

/-- The scan fails at a lexeme that does not end. -/
theorem scan_cons_of_error {kind : Delimited}
    (h : lexeme replaceDigits (Before.ofReversed written) first rest = .error kind) :
    scan replaceDigits total written (first :: rest) =
      .error ⟨kind, total - (rest.length + 1)⟩ := by
  rw [scan]
  split
  · rename_i kind' hkind
    rw [h] at hkind
    cases hkind
    rfl
  · rename_i piece' after' hread
    rw [h] at hread
    cases hread

/-! ### What has been written -/

/-- Only a string behind an `E` takes that `E` away. -/
theorem Reads.escapeMark_of_placeholderForMark
    (h : Reads replaceDigits before first rest .placeholderForMark after) :
    before.escapeMark = true := by
  generalize hpiece : Piece.placeholderForMark = piece at h
  cases h with
  | stringLiteral closed =>
    split at hpiece
    · assumption
    · cases hpiece
  | _ => cases hpiece

section Behind

variable {front : List Char} {d : Char}

/-- What stands before a character that is no `E` has no influence on the next lexeme. -/
theorem Before.ofReversed_append_cons (hupper : d ≠ 'E') (hlower : d ≠ 'e') (written' : List Char) :
    Before.ofReversed (front ++ d :: written) = Before.ofReversed (front ++ d :: written') := by
  have hmark : (d == 'E' || d == 'e') = false := by simp [hupper, hlower]
  match front with
  | [] => simp [Before.ofReversed, hmark]
  | [_] | _ :: _ :: _ => rfl

/-- What the scan has written stays, except for an `E` at the end. -/
theorem Reads.exists_appendTo (hupper : d ≠ 'E') (hlower : d ≠ 'e')
    (h : Reads replaceDigits (Before.ofReversed (front ++ d :: written)) first rest piece after) :
    ∃ front', ∀ written', piece.appendTo (front ++ d :: written') = front' ++ d :: written' := by
  cases piece with
  | placeholder => exact ⟨'?' :: front, fun _ => rfl⟩
  | placeholderForMark =>
    have hmark := h.escapeMark_of_placeholderForMark
    cases front with
    | nil => simp [Before.ofReversed, hupper, hlower] at hmark
    | cons mark front => exact ⟨'?' :: front, fun _ => rfl⟩
  | blank =>
    by_cases hspace : (front ++ [d]).head? = some ' '
    · refine ⟨front, fun written' => ?_⟩
      cases front <;> simp_all [Piece.appendTo]
    · refine ⟨' ' :: front, fun written' => ?_⟩
      cases front <;> simp_all [Piece.appendTo]
  | verbatim text => exact ⟨text.reverse ++ front, fun _ => by simp [Piece.appendTo]⟩

end Behind

/-- On its way through `text` the scan looks for a lexeme at the front of `rest`, when it has
written `written`, last character first. -/
inductive Reaches (replaceDigits : Bool) (text : List Char) : List Char → List Char → Prop
  | start : Reaches replaceDigits text [] text
  | step {written rest after : List Char} {first : Char} {piece : Piece} :
      Reaches replaceDigits text written (first :: rest) →
      Reads replaceDigits (Before.ofReversed written) first rest piece after →
      Reaches replaceDigits text (piece.appendTo written) after

namespace Reaches

/-- From a place that it reaches the scan goes on as if it had started there. -/
theorem scan_eq (h : Reaches replaceDigits text written rest) :
    scan replaceDigits total [] text = scan replaceDigits total written rest := by
  induction h with
  | start => rfl
  | step _ hread ih => rw [ih, scan_cons_of_reads hread]

/-- What is still to be read is the end of the text. -/
theorem suffix (h : Reaches replaceDigits text written rest) : rest <:+ text := by
  induction h with
  | start => exact List.suffix_refl _
  | @step _ rest _ first _ _ hread ih =>
    exact (suffix_of_lexeme (lexeme_of_reads hread)).trans ((List.suffix_cons first rest).trans ih)

end Reaches

/-- The place that the scan comes to behind a number of lexemes: what it has written, and what is
still to be read. -/
def place? (replaceDigits : Bool) (text : List Char) : Nat → Option (List Char × List Char)
  | 0 => some ([], text)
  | n + 1 =>
    match place? replaceDigits text n with
    | some (written, first :: rest) =>
      match lexeme replaceDigits (Before.ofReversed written) first rest with
      | .ok (piece, after) => some (piece.appendTo written, after)
      | .error _ => none
    | _ => none

/-- The places that the scan comes to can be computed. -/
theorem reaches_iff_exists_place? :
    Reaches replaceDigits text written rest ↔
      ∃ n, place? replaceDigits text n = some (written, rest) := by
  constructor
  · intro h
    induction h with
    | start => exact ⟨0, rfl⟩
    | step _ hread ih =>
      obtain ⟨n, hn⟩ := ih
      refine ⟨n + 1, ?_⟩
      simp only [place?, hn, lexeme_of_reads hread]
  · rintro ⟨n, h⟩
    induction n generalizing written rest with
    | zero =>
      obtain ⟨rfl, rfl⟩ : [] = written ∧ text = rest := by simpa [place?] using h
      exact .start
    | succ n ih =>
      simp only [place?] at h
      split at h
      · rename_i hn
        split at h
        · rename_i hlex
          obtain ⟨rfl, rfl⟩ := by simpa using h
          exact (ih hn).step (reads_of_lexeme hlex)
        · cases h
      · cases h

/-- What is left of a statement, computed lexeme by lexeme. -/
theorem strip_eq_of_place? {left : List Char} (n : Nat) (written : List Char)
    (h : place? replaceDigits text n = some (written, []))
    (hleft : collapse [','] (collapse [',', ' '] (Text.trim written.reverse)) = left) :
    strip replaceDigits text = .ok left := by
  have hreach : Reaches replaceDigits text written [] := reaches_iff_exists_place?.mpr ⟨n, h⟩
  rw [strip, hreach.scan_eq, scan_nil, ← hleft]
  rfl

/-! ### Positions counted from the end -/

/-- The same failure in a text of the given length, with its position counted from the end. -/
def Unterminated.fromEnd (length : Nat) (u : Unterminated) : Unterminated :=
  ⟨u.kind, length - u.position⟩

/-- Counted from the end, the position of a failure does not depend on what stands before the text
that is still to be read. -/
theorem mapError_fromEnd_scan (replaceDigits : Bool) (written : List Char) {total total' : Nat}
    (h : rest.length ≤ total) (h' : rest.length ≤ total') :
    (scan replaceDigits total written rest).mapError (Unterminated.fromEnd total) =
      (scan replaceDigits total' written rest).mapError (Unterminated.fromEnd total') := by
  induction hn : rest.length using Nat.strongRecOn generalizing written rest with
  | _ n ih =>
    subst hn
    cases rest with
    | nil => simp only [scan_nil]; rfl
    | cons first rest =>
      simp only [List.length_cons] at h h'
      cases hlex : lexeme replaceDigits (Before.ofReversed written) first rest with
      | error kind =>
        rw [scan_cons_of_error hlex, scan_cons_of_error hlex]
        refine congrArg (fun position => Except.error (⟨kind, position⟩ : Unterminated)) ?_
        change total - (total - (rest.length + 1)) = total' - (total' - (rest.length + 1))
        omega
      | ok found =>
        obtain ⟨piece, after⟩ := found
        have hread := reads_of_lexeme hlex
        have shorter := (suffix_of_lexeme hlex).length_le
        rw [scan_cons_of_reads hread, scan_cons_of_reads hread]
        exact ih after.length (by simp only [List.length_cons]; omega) _ (by omega) (by omega) rfl

/-- The same failure for a text of the given length, with its position counted from the end. -/
def Failure.fromEnd (length : Nat) : Failure → Failure
  | .unterminated u => .unterminated (u.fromEnd length)
  | .invalidOptions => .invalidOptions
  | .empty => .empty

/-- What is left of a text depends on a place that the scan comes to, and on nothing that it has
read before. -/
theorem mapError_fromEnd_strip_eq (h : Reaches replaceDigits text written rest)
    (htotal : rest.length ≤ total) :
    (strip replaceDigits text).mapError (Unterminated.fromEnd text.length) =
      ((scan replaceDigits total written rest).mapError (Unterminated.fromEnd total)).map
        fun written => collapse [','] (collapse [',', ' '] (Text.trim written.reverse)) := by
  have swap : ∀ (f : Unterminated → Unterminated) (g : List Char → List Char)
      (result : Except Unterminated (List Char)),
      (result.map g).mapError f = (result.mapError f).map g := by
    rintro f g (u | text) <;> rfl
  rw [strip, h.scan_eq, swap, mapError_fromEnd_scan replaceDigits written h.suffix.length_le htotal]

/-- If the scan brings two texts to the same place, the same is left of both. -/
theorem mapError_fromEnd_strip {text' : List Char} (h : Reaches replaceDigits text written rest)
    (h' : Reaches replaceDigits text' written rest) :
    (strip replaceDigits text).mapError (Unterminated.fromEnd text.length) =
      (strip replaceDigits text').mapError (Unterminated.fromEnd text'.length) :=
  (mapError_fromEnd_strip_eq h (Nat.le_refl _)).trans
    (mapError_fromEnd_strip_eq h' (Nat.le_refl _)).symm

/-- If the same is left of two statements, they have the same outcome: the same redacted statement,
or the same failure equally far from the end. -/
theorem mapError_fromEnd_redact_of_strip {document statement statement' : String}
    (h : ∀ options, Options.parse? document = some options →
      (strip options.replaceDigits statement.toList).mapError
          (Unterminated.fromEnd statement.length) =
        (strip options.replaceDigits statement'.toList).mapError
          (Unterminated.fromEnd statement'.length)) :
    (redact document statement).mapError (Failure.fromEnd statement.length) =
      (redact document statement').mapError (Failure.fromEnd statement'.length) := by
  unfold redact
  cases hoptions : Options.parse? document with
  | none => rfl
  | some options =>
    have strips := h options hoptions
    simp only [redactWith]
    cases hstrip : strip options.replaceDigits statement.toList with
    | error u =>
      cases hstrip' : strip options.replaceDigits statement'.toList with
      | error u' =>
        rw [hstrip, hstrip'] at strips
        exact congrArg (Except.error ∘ Failure.unterminated) (Except.error.inj strips)
      | ok text' =>
        rw [hstrip, hstrip'] at strips
        exact nomatch strips
    | ok text =>
      cases hstrip' : strip options.replaceDigits statement'.toList with
      | error u' =>
        rw [hstrip, hstrip'] at strips
        exact nomatch strips
      | ok text' =>
        rw [hstrip, hstrip'] at strips
        obtain rfl : text = text' := Except.ok.inj strips
        cases text <;> rfl

/-- If the scan brings two statements to the same place, they have the same outcome. -/
theorem mapError_fromEnd_redact {document statement statement' : String}
    (h : ∀ options, Options.parse? document = some options → ∃ written rest,
      Reaches options.replaceDigits statement.toList written rest ∧
        Reaches options.replaceDigits statement'.toList written rest) :
    (redact document statement).mapError (Failure.fromEnd statement.length) =
      (redact document statement').mapError (Failure.fromEnd statement'.length) := by
  refine mapError_fromEnd_redact_of_strip fun options hoptions => ?_
  obtain ⟨written, rest, hreach, hreach'⟩ := h options hoptions
  have strips := mapError_fromEnd_strip hreach hreach'
  rwa [String.length_toList, String.length_toList] at strips

end Redaction

end QueryTelemetry
