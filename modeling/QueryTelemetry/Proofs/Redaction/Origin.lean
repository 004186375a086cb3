import QueryTelemetry.Proofs.Concatenation
import QueryTelemetry.Proofs.Redaction.Passage

/-!
# Where the digits of a redacted statement come from

Each digit that is left of a statement, outside quoted identifiers and parameters, was copied from
one place of the statement (`StemsFrom`, `StemsFrom.unique`), since nothing else that is written for
a lexeme has digits. There it is part of a word that does not begin with a digit, unless the word
goes on behind a number (`exists_stemsFrom_of_digit`). So nothing is left of a number that a blank
or an operator follows. If a letter or an underscore follows, as in `0x1F`, the digits behind it are
left (`not_stemsFrom_word_hexNumber`).
-/

namespace QueryTelemetry

namespace Redaction

variable {text statement written rest after front back : List Char} {passed : List (Option Char)}
  {replaceDigits : Bool} {before : Before} {first d : Char} {piece : Piece}

/-! ### Quotes in what is written -/

/-- Within a quoted identifier its quotes are doubled. -/
theorem exists_count_quote_of_afterQuote? (h : afterQuote? '"' false text = some after) :
    ∃ body, text = body ++ after ∧ body.count '"' % 2 = 1 ∧
      ∀ front c back, body = front ++ c :: back → c ≠ '"' → front.count '"' % 2 = 0 := by
  have single : ∀ front c back, ['"'] = front ++ c :: back → c ≠ '"' → front.count '"' % 2 = 0 := by
    rintro (_ | ⟨x, front⟩) c back h hc
    · rfl
    · simp at h
  fun_induction afterQuote? '"' false text with
  | case1 => cases h
  | case2 _ escape => cases escape
  | case3 =>
    obtain rfl := Option.some.inj h
    exact ⟨['"'], rfl, rfl, single⟩
  | case4 => cases h
  | case5 _ _ _ escape => cases escape
  | case6 rest _ ih =>
    obtain ⟨body, rfl, hodd, heven⟩ := ih h
    refine ⟨'"' :: '"' :: body, rfl, ?_, ?_⟩
    · rw [List.count_cons_self, List.count_cons_self]
      omega
    · rintro (_ | ⟨x, _ | ⟨y, front⟩⟩) c back hbody hc
      · rfl
      · obtain ⟨-, rfl, -⟩ : '"' = x ∧ '"' = c ∧ body = back := by simpa using hbody
        exact absurd rfl hc
      · obtain ⟨rfl, rfl, htail⟩ : '"' = x ∧ '"' = y ∧ body = front ++ c :: back := by
          simpa using hbody
        have := heven front c back htail hc
        rw [List.count_cons_self, List.count_cons_self]
        omega
  | case7 d rest =>
    obtain rfl := Option.some.inj h
    exact ⟨['"'], rfl, rfl, single⟩
  | case8 c d rest _ hc ih =>
    obtain ⟨body, htext, hodd, heven⟩ := ih h
    refine ⟨c :: body, by rw [htext, List.cons_append], by rwa [List.count_cons_of_ne hc], ?_⟩
    rintro (_ | ⟨x, front⟩) c' back hbody hc'
    · rfl
    · obtain ⟨rfl, htail⟩ : c = x ∧ body = front ++ c' :: back := by simpa using hbody
      rw [List.count_cons_of_ne hc]
      exact heven front c' back htail hc'

/-- Digits hold no quotes. -/
private theorem count_quote_digits {digits : List Char} (h : ∀ c ∈ digits, c.isDigit = true) :
    digits.count '"' = 0 :=
  List.count_eq_zero_of_not_mem fun hquote => by cases h _ hquote

/-- A lexeme that is written as it stands has its quotes in pairs. -/
theorem Reads.count_quote (h : Reads replaceDigits before first rest (.verbatim text) after) :
    text.count '"' % 2 = 0 := by
  generalize hpiece : Piece.verbatim text = piece at h
  cases h with
  | stringLiteral closed => split at hpiece <;> cases hpiece
  | quotedIdentifier closed =>
    obtain ⟨body, htext, hodd, -⟩ := exists_count_quote_of_afterQuote? closed
    obtain rfl := List.append_cancel_right htext
    obtain rfl := Piece.verbatim.inj hpiece
    rw [List.count_cons_self]
    omega
  | parameter hword digit =>
    obtain rfl := Piece.verbatim.inj hpiece
    rw [List.count_cons_of_ne (by decide), count_quote_digits fun _ => isDigit_of_mem_takeWhile]
  | dollar hword digit unopened =>
    obtain rfl := Piece.verbatim.inj hpiece
    rfl
  | digitInWord digit hword hkeep =>
    obtain rfl := Piece.verbatim.inj hpiece
    rw [List.count_cons_of_ne (ne_of_isDigit digit rfl), List.count_nil]
  | other hstring hidentifier =>
    obtain rfl := Piece.verbatim.inj hpiece
    rw [List.count_cons_of_ne hidentifier, List.count_nil]
  | _ => cases hpiece

/-- What the scan has written has its quotes in pairs. -/
theorem Reaches.count_quote (h : Reaches replaceDigits text written rest) :
    written.count '"' % 2 = 0 := by
  induction h with
  | start => rfl
  | @step written _ _ _ piece _ hread ih =>
    cases piece with
    | placeholder => rwa [Piece.appendTo, List.count_cons_of_ne (by decide)]
    | placeholderForMark =>
      have hmark := hread.escapeMark_of_placeholderForMark
      cases written with
      | nil => rfl
      | cons c written =>
        have hc : c ≠ '"' := by
          rintro rfl
          cases hmark
        rw [List.count_cons_of_ne hc] at ih
        rwa [Piece.appendTo, List.count_cons_of_ne (by decide)]
    | blank =>
      rw [Piece.appendTo]
      split
      · exact ih
      · rwa [List.count_cons_of_ne (by decide)]
    | verbatim text =>
      have := hread.count_quote
      rw [Piece.appendTo, List.count_append, List.count_reverse]
      omega

/-! ### Digits in what is written -/

/-- A digit that has been written stands in what was written before or in a lexeme that is written
as it stands. -/
theorem Piece.exists_of_appendTo (digit : d.isDigit = true)
    (h : (piece.appendTo written).reverse = front ++ d :: back) :
    (∃ back', written.reverse = front ++ d :: back') ∨ ∃ middle,
      front = written.reverse ++ middle ∧ piece = .verbatim (middle ++ d :: back) := by
  have inFront : ∀ {text : List Char} {c : Char}, c.isDigit = false →
      text ++ [c] = front ++ d :: back → ∃ back', text = front ++ d :: back' := by
    intro text c hc htext
    rcases concat_eq_append_cons htext with ⟨middle, hbefore, -⟩ | ⟨-, hlast, -⟩
    · exact ⟨middle, hbefore⟩
    · exact absurd hlast (ne_of_isDigit digit hc)
  cases piece with
  | placeholder =>
    rw [appendTo, List.reverse_cons] at h
    exact .inl (inFront rfl h)
  | placeholderForMark =>
    rw [appendTo, List.reverse_cons] at h
    obtain ⟨back', hback⟩ := inFront rfl h
    cases written with
    | nil => exact .inl ⟨back', hback⟩
    | cons mark written =>
      rw [List.drop_one, List.tail_cons] at hback
      exact .inl ⟨back' ++ [mark], by simp [hback]⟩
  | blank =>
    rw [appendTo] at h
    split at h
    · exact .inl ⟨back, h⟩
    · rw [List.reverse_cons] at h
      exact .inl (inFront rfl h)
  | verbatim text =>
    rw [appendTo, List.reverse_append, List.reverse_reverse] at h
    rcases append_eq_append_cons h with ⟨middle, hbefore, -⟩ | ⟨middle, hfront, rfl⟩
    · exact .inl ⟨middle, hbefore⟩
    · exact .inr ⟨middle, hfront, rfl⟩

/-- Outside quoted identifiers a lexeme that is written as it stands has digits only if it is a
digit itself or a parameter. -/
theorem Reads.of_digit (digit : d.isDigit = true) (hquotes : front.count '"' % 2 = 0)
    (h : Reads replaceDigits before first rest (.verbatim (front ++ d :: back)) after) :
    (front = [] ∧ d = first ∧ Reads replaceDigits before d rest (.verbatim [d]) rest) ∨
      before.inWord = false ∧ ∃ digits, front = '$' :: digits ∧ ∀ c ∈ digits, c.isDigit = true := by
  generalize hpiece : Piece.verbatim (front ++ d :: back) = piece at h
  cases h with
  | stringLiteral closed => split at hpiece <;> cases hpiece
  | @quotedIdentifier body after closed =>
    obtain ⟨body', htext, -, heven⟩ := exists_count_quote_of_afterQuote? closed
    obtain rfl := List.append_cancel_right htext
    have hd : d ≠ '"' := ne_of_isDigit digit rfl
    cases front with
    | nil => exact absurd (List.cons.inj (Piece.verbatim.inj hpiece)).1 hd
    | cons quote front =>
      obtain ⟨rfl, hbody⟩ := List.cons.inj (Piece.verbatim.inj hpiece)
      -- the quote at the front makes the number of quotes before the digit odd
      have := heven front d back hbody.symm hd
      rw [List.count_cons_self] at hquotes
      omega
  | parameter hword hfirst =>
    cases front with
    | nil => exact absurd (List.cons.inj (Piece.verbatim.inj hpiece)).1 (ne_of_isDigit digit rfl)
    | cons dollar digits =>
      obtain ⟨rfl, hdigits⟩ := List.cons.inj (Piece.verbatim.inj hpiece)
      have hall : ∀ c ∈ digits, c ∈ rest.takeWhile Char.isDigit :=
        fun c hc => hdigits ▸ List.mem_append_left _ hc
      exact .inr ⟨hword, digits, rfl, fun c hc => isDigit_of_mem_takeWhile (hall c hc)⟩
  | dollar hword hfirst unopened =>
    obtain ⟨-, rfl, -⟩ := singleton_eq_append_cons (Piece.verbatim.inj hpiece).symm
    cases digit
  | digitInWord hfirst hword hkeep =>
    obtain ⟨rfl, rfl, -⟩ := singleton_eq_append_cons (Piece.verbatim.inj hpiece).symm
    exact .inl ⟨rfl, rfl, .digitInWord hfirst hword hkeep⟩
  | other hstring hidentifier hdash hslash hdollar hfirst hblank =>
    obtain ⟨-, rfl, -⟩ := singleton_eq_append_cons (Piece.verbatim.inj hpiece).symm
    rw [digit] at hfirst
    cases hfirst
  | _ => cases hpiece

/-! ### The place that a digit comes from -/

/-- The text ends in the dollar of a parameter, or in some of its digits. -/
def EndsInParameter (text : List Char) : Prop :=
  ∃ before digits, text = before ++ '$' :: digits ∧ endsInWord before = false ∧
    ∀ c ∈ digits, c.isDigit = true

theorem endsInParameter_iff :
    EndsInParameter text ↔ (Place.start.after text).inParameter = true := by
  constructor
  · rintro ⟨before, digits, rfl, hword, hdigits⟩
    rw [← Place.inWord_after_start] at hword
    rw [Place.after_append, Place.after_cons, Place.next_dollar hword, Place.after_digits hdigits]
  · intro h
    rcases Place.exists_of_inParameter_after h with ⟨before, digits, rfl, hword, hdigits⟩ | ⟨h, -⟩
    · exact ⟨before, digits, rfl, by rwa [Place.inWord_after_start] at hword, hdigits⟩
    · cases h

theorem inWord_ofReversed (written : List Char) :
    (Before.ofReversed written).inWord = endsInWord written.reverse := by
  rw [endsInWord, List.getLast?_reverse]
  cases written <;> rfl

/-- A digit that the scan has written, outside quoted identifiers and parameters, was copied when
the scan came to it. -/
theorem Passes.exists_of_digit (h : Passes text passed written rest)
    (hwritten : written.reverse = front ++ d :: back) (digit : d.isDigit = true)
    (hquotes : front.count '"' % 2 = 0) (hparameter : ¬ EndsInParameter front) :
    ∃ passed' rest', Passes text passed' front.reverse (d :: rest') ∧
      Reads false (Before.ofReversed front.reverse) d rest' (.verbatim [d]) rest' := by
  induction h generalizing back with
  | start => simp at hwritten
  | @step passed written taken after first piece hpassed hread ih =>
    rcases Piece.exists_of_appendTo digit hwritten with ⟨back', hbefore⟩ | ⟨middle, rfl, rfl⟩
    · exact ih hbefore
    · have heven : middle.count '"' % 2 = 0 := by
        have := hpassed.reaches.count_quote
        rw [List.count_append, List.count_reverse] at hquotes
        omega
      rcases hread.of_digit digit heven with
        ⟨rfl, rfl, hcopy⟩ | ⟨hword, digits, rfl, hdigits⟩
      · rw [List.append_nil, List.reverse_reverse]
        exact ⟨passed, _, hpassed, hcopy⟩
      · refine absurd ⟨written.reverse, digits, rfl, ?_, hdigits⟩ hparameter
        rwa [← inWord_ofReversed]

/-- The character `d` that stands behind `front` in a redacted statement was copied from the front
of `d :: rest` when the scan came to it, having gone past `passed`. What was written by then has
become `front`. -/
def StemsFrom (statement front : List Char) (d : Char) (passed : List (Option Char))
    (rest : List Char) : Prop :=
  ∃ written, Passes statement passed written (d :: rest) ∧
    Reads false (Before.ofReversed written) d rest (.verbatim [d]) rest ∧
    collapse [','] (collapse [',', ' '] written.reverse) = front

/-- What is copied at one place is there at all later places. -/
theorem exists_of_passage?_lt {n m : Nat} {passed' : List (Option Char)}
    {written' rest' : List Char} (hupper : d ≠ 'E') (hlower : d ≠ 'e')
    (h : passage? text n = some (passed, written, d :: rest))
    (hcopy : Reads false (Before.ofReversed written) d rest (.verbatim [d]) rest) (hlt : n < m)
    (h' : passage? text m = some (passed', written', rest')) :
    ∃ more, written' = more ++ d :: written := by
  induction hlt generalizing passed' written' rest' with
  | refl =>
    have hnext : passage? text (n + 1) =
        some (trace (Before.ofReversed written) d [] rest ++ passed,
          (Piece.verbatim [d]).appendTo written, rest) :=
      passage?_succ h hcopy
    rw [hnext] at h'
    obtain ⟨-, rfl, -⟩ := by simpa using h'
    exact ⟨[], rfl⟩
  | step _ ih =>
    obtain ⟨_, _, _, _, _, hm, hread, -, rfl⟩ := exists_of_passage?_succ h'
    obtain ⟨more, rfl⟩ := ih hm
    obtain ⟨more', hmore'⟩ := hread.exists_appendTo hupper hlower
    exact ⟨more', hmore' written⟩

/-- A text that has been written becomes longer where lists are joined if another digit follows. -/
private theorem collapse_ne_of_digit (digit : d.isDigit = true) (text more : List Char) :
    collapse [','] (collapse [',', ' '] (text ++ d :: more)) ≠
      collapse [','] (collapse [',', ' '] text) := by
  have hother : ∀ c : Char, c.isDigit = false → d ≠ c := fun _ => ne_of_isDigit digit
  have hspaced : d ∉ [',', ' '] ++ ['?'] := by simp [hother]
  have hlist : d ∉ [','] ++ ['?'] := by simp [hother]
  rw [collapse_append_cons hspaced, collapse_append_cons hlist]
  simp

/-- A digit stems from one place of the statement only. -/
theorem StemsFrom.unique {passed' : List (Option Char)} {rest' : List Char}
    (digit : d.isDigit = true) (h : StemsFrom statement front d passed rest)
    (h' : StemsFrom statement front d passed' rest') :
    passed = passed' ∧ rest = rest' := by
  have hupper : d ≠ 'E' := ne_of_isDigit digit rfl
  have hlower : d ≠ 'e' := ne_of_isDigit digit rfl
  obtain ⟨written, hpassed, hcopy, rfl⟩ := h
  obtain ⟨written', hpassed', hcopy', hfront⟩ := h'
  obtain ⟨n, hn⟩ := passes_iff_exists_passage?.mp hpassed
  obtain ⟨m, hm⟩ := passes_iff_exists_passage?.mp hpassed'
  rcases Nat.lt_trichotomy n m with hlt | rfl | hlt
  · obtain ⟨more, rfl⟩ := exists_of_passage?_lt hupper hlower hn hcopy hlt hm
    refine absurd hfront ?_
    simpa using collapse_ne_of_digit digit written.reverse more.reverse
  · rw [hn] at hm
    obtain ⟨rfl, -, rfl⟩ : passed = passed' ∧ written = written' ∧ rest = rest' := by simpa using hm
    exact ⟨rfl, rfl⟩
  · obtain ⟨more, rfl⟩ := exists_of_passage?_lt hupper hlower hm hcopy' hlt hn
    refine absurd hfront.symm ?_
    simpa using collapse_ne_of_digit digit written'.reverse more.reverse

/-- The scan comes to the end of the statement. -/
theorem Passes.exists_of_scan {total : Nat} {out : List Char}
    (h : Passes text passed written rest) (hscan : scan false total written rest = .ok out) :
    ∃ passed', Passes text passed' out [] := by
  fun_induction scan false total written rest generalizing passed with
  | case1 written =>
    obtain rfl := Except.ok.inj hscan
    exact ⟨passed, h⟩
  | case2 => cases hscan
  | case3 written first rest piece after hread ih =>
    obtain ⟨taken, rfl⟩ := suffix_of_lexeme hread
    exact ih (h.step (reads_of_lexeme hread)) hscan

/-- Where a digit is left behind `front`, there was one when the scan had come to its end, behind a
text that has become `front`. -/
theorem exists_of_strip (digit : d.isDigit = true)
    (h : strip replaceDigits statement = .ok (front ++ d :: back)) :
    ∃ out front' back', scan replaceDigits statement.length [] statement = .ok out ∧
      out.reverse = front' ++ d :: back' ∧ collapse [','] (collapse [',', ' '] front') = front := by
  have hmark : d ≠ '?' := ne_of_isDigit digit rfl
  rw [strip] at h
  cases hscan : scan replaceDigits statement.length [] statement with
  | error u =>
    rw [hscan] at h
    cases h
  | ok out =>
    rw [hscan] at h
    obtain ⟨middle, tail, hmiddle, rfl⟩ := exists_eq_of_collapse_eq hmark (Except.ok.inj h)
    obtain ⟨front', tail', htrim, rfl⟩ := exists_eq_of_collapse_eq hmark hmiddle
    rw [Text.trim, dropWhile_eq_self (settled_of_scan hscan).any_head?] at htrim
    obtain ⟨blanks, -, hout⟩ := exists_eq_trimEnd_append out.reverse
    rw [htrim] at hout
    exact ⟨out, front', tail' ++ blanks, rfl, by simp [hout], rfl⟩

/-- A statement is redacted to what is left of it. -/
theorem exists_redact_of_parse {document statement text : String} {options : Options}
    (hoptions : Options.parse? document = some options) (hne : text.toList ≠ [])
    (h : strip options.replaceDigits statement.toList = .ok text.toList) :
    ∃ mentions, redact document statement = .ok ⟨text, mentions⟩ := by
  simp only [redact, redactWith, hoptions]
  rw [h]
  obtain ⟨chars, rfl⟩ : ∃ chars, text = String.ofList chars := ⟨text.toList, by simp⟩
  rw [String.toList_ofList] at hne ⊢
  cases chars with
  | nil => exact absurd rfl hne
  | cons c rest => exact ⟨_, rfl⟩

/-- With the default options a statement is redacted to what is left of it. -/
theorem exists_redact_of_strip {statement text : String} (hne : text.toList ≠ [])
    (h : strip false statement.toList = .ok text.toList) :
    ∃ mentions, redact "" statement = .ok ⟨text, mentions⟩ :=
  have hoptions : Options.parse? "" = some Options.default := rfl
  exists_redact_of_parse hoptions hne h

/-- Each digit of a redacted statement, outside its quoted identifiers and parameters, was copied
from a word of the statement. That word does not begin with a digit, unless it goes on behind a
number that has been replaced. -/
theorem exists_stemsFrom_of_digit (document statement : String) (redacted : Redacted)
    (h : redact document statement = .ok redacted) (front back : List Char) (d : Char)
    (htext : redacted.text.toList = front ++ d :: back) (digit : d.isDigit = true)
    (hquotes : front.count '"' % 2 = 0) (hparameter : ¬ EndsInParameter front) :
    ∃ passed rest, StemsFrom statement.toList front d passed rest ∧
      ∃ c, runStart (some d :: passed) = some c ∧
        (c.isDigit = true → ContinuesNumber statement.toList passed (d :: rest)) := by
  unfold redact at h
  split at h
  · cases h
  · rename_i options hoptions
    obtain ⟨hstrip, -⟩ := exists_strip_of_redactWith h
    rw [htext] at hstrip
    obtain ⟨hword, hreplace⟩ := ((isStripped_of_strip hstrip).settled.inert hquotes).no_number digit
    have hkeep : options.replaceDigits = false := by
      rw [← Bool.not_eq_true]
      exact fun hreplaced => hparameter (hreplace hreplaced)
    rw [hkeep] at hstrip
    obtain ⟨out, front', back', hscan, hout, rfl⟩ := exists_of_strip digit hstrip
    obtain ⟨passed', hend⟩ := Passes.start.exists_of_scan hscan
    -- joining lists changes neither the quotes in front of the digit nor the place of the digit
    rw [count_quote_collapse (by decide), count_quote_collapse (by decide)] at hquotes
    rw [endsInParameter_iff, Place.after_collapse, Place.after_collapse, ← endsInParameter_iff]
      at hparameter
    obtain ⟨passed, rest, hpassed, hcopy⟩ := hend.exists_of_digit hout digit hquotes hparameter
    rw [endsInWord, getLast?_collapse, getLast?_collapse, ← endsInWord,
      ← List.reverse_reverse front', ← inWord_ofReversed] at hword
    have hstems : StemsFrom statement.toList _ d passed rest :=
      ⟨front'.reverse, hpassed, hcopy, rfl⟩
    rw [List.reverse_reverse] at hstems
    exact ⟨passed, rest, hstems, hpassed.exists_runStart digit hword⟩

/-- The digit that is left of `SELECT id_1, 2` is that of the word `id_1`. -/
theorem exists_stemsFrom_of_digit_identifier :
    ∃ redacted, redact "" "SELECT id_1, 2" = .ok redacted ∧
      redacted.text.toList = "SELECT id_".toList ++ '1' :: ", ?".toList ∧
      ('1').isDigit = true ∧ "SELECT id_".toList.count '"' % 2 = 0 ∧
      ¬ EndsInParameter "SELECT id_".toList ∧
      ∃ passed rest, StemsFrom "SELECT id_1, 2".toList "SELECT id_".toList '1' passed rest ∧
        ∃ c, runStart (some '1' :: passed) = some c ∧
          (c.isDigit = true → ContinuesNumber "SELECT id_1, 2".toList passed ('1' :: rest)) := by
  have hstrip : strip false "SELECT id_1, 2".toList = .ok "SELECT id_1, ?".toList := by
    have hreach : Reaches false "SELECT id_1, 2".toList "? ,1_di TCELES".toList [] :=
      reaches_iff_exists_place?.mpr ⟨14, by decide⟩
    rw [strip, hreach.scan_eq, scan_nil]
    rfl
  obtain ⟨mentions, hredact⟩ := exists_redact_of_strip (by decide) hstrip
  have htext : "SELECT id_1, ?".toList = "SELECT id_".toList ++ '1' :: ", ?".toList := rfl
  have hparameter : ¬ EndsInParameter "SELECT id_".toList := by
    rw [endsInParameter_iff]
    decide
  exact ⟨_, hredact, htext, rfl, rfl, hparameter,
    exists_stemsFrom_of_digit _ _ _ hredact _ _ _ htext rfl rfl hparameter⟩

/-- Of the number in `SELECT 0x1F` the letters and the digit behind its zero are left. That digit
does not stem from a word: the run of characters that it belongs to begins with the zero. -/
theorem not_stemsFrom_word_hexNumber :
    ∃ redacted, redact "" "SELECT 0x1F" = .ok redacted ∧
      redacted.text.toList = "SELECT ?x".toList ++ '1' :: "F".toList ∧
      ('1').isDigit = true ∧ "SELECT ?x".toList.count '"' % 2 = 0 ∧
      ¬ EndsInParameter "SELECT ?x".toList ∧
      ¬ ∃ passed rest, StemsFrom "SELECT 0x1F".toList "SELECT ?x".toList '1' passed rest ∧
        ∃ c, runStart (some '1' :: passed) = some c ∧ c.isDigit = false := by
  have hstrip : strip false "SELECT 0x1F".toList = .ok "SELECT ?x1F".toList := by
    have hreach : Reaches false "SELECT 0x1F".toList "F1x? TCELES".toList [] :=
      reaches_iff_exists_place?.mpr ⟨11, by decide⟩
    rw [strip, hreach.scan_eq, scan_nil]
    rfl
  obtain ⟨mentions, hredact⟩ := exists_redact_of_strip (by decide) hstrip
  have hpassed : Passes "SELECT 0x1F".toList ("x0 TCELES".toList.map some) "x? TCELES".toList
      "1F".toList :=
    passes_iff_exists_passage?.mpr ⟨9, by decide⟩
  have hcopy : Reads false (Before.ofReversed "x? TCELES".toList) '1' ['F'] (.verbatim ['1'])
      ['F'] :=
    .digitInWord rfl rfl rfl
  have hstems : StemsFrom "SELECT 0x1F".toList "SELECT ?x".toList '1'
      ("x0 TCELES".toList.map some) ['F'] :=
    ⟨_, hpassed, hcopy, rfl⟩
  have hparameter : ¬ EndsInParameter "SELECT ?x".toList := by
    rw [endsInParameter_iff]
    decide
  have htext : "SELECT ?x1F".toList = "SELECT ?x".toList ++ '1' :: "F".toList := rfl
  refine ⟨_, hredact, htext, rfl, rfl, hparameter, ?_⟩
  rintro ⟨passed, rest, hstems', c, hstart, hc⟩
  obtain ⟨rfl, -⟩ := hstems.unique rfl hstems'
  have hzero : runStart (some '1' :: "x0 TCELES".toList.map some) = some '0' := rfl
  rw [hzero, Option.some.injEq] at hstart
  rw [← hstart] at hc
  cases hc

end Redaction

end QueryTelemetry
