import QueryTelemetry.Proofs.Redaction.Literal

/-!
# Settled texts

A text is settled if there is nothing left in it to replace: outside quoted identifiers each of its
characters stands for itself. Whether a character does depends on the text before it through its
`Place` alone, and on the text after it through the next character and, for a dollar, through the
end of the run that would be its tag.

The scan copies a settled text (`Settled.scan_eq`).
-/

namespace QueryTelemetry

namespace Redaction

/-! ### Places -/

/-- Where a character stands. -/
structure Place where
  /-- The character before it. -/
  last : Option Char
  /-- Whether it comes right after the dollar or a digit of a parameter. -/
  inParameter : Bool

namespace Place

/-- The start of a text. -/
def start : Place := ⟨none, false⟩

/-- Whether the text before ends in a character of a word. -/
def inWord (p : Place) : Bool := p.last.any isWordChar

/-- The place behind a character. -/
def next (p : Place) (c : Char) : Place :=
  ⟨some c, if c = '$' then !p.inWord else c.isDigit && p.inParameter⟩

/-- The place behind a text. -/
def after (p : Place) (text : List Char) : Place := text.foldl next p

variable {p : Place} {c : Char} {text : List Char}

@[simp] theorem next_last : (p.next c).last = some c := rfl

@[simp] theorem after_nil : p.after [] = p := rfl

@[simp] theorem after_cons : p.after (c :: text) = (p.next c).after text := rfl

theorem after_append (p : Place) (text text' : List Char) :
    p.after (text ++ text') = (p.after text).after text' :=
  List.foldl_append

@[simp] theorem after_concat : p.after (text ++ [c]) = (p.after text).next c := by
  simp [after]

/-- Behind another character than a dollar or a digit no parameter goes on. -/
theorem next_of_isDigit_eq_false (hdollar : c ≠ '$') (hdigit : c.isDigit = false) :
    p.next c = ⟨some c, false⟩ := by
  simp [next, hdollar, hdigit]

theorem next_quote : p.next '"' = ⟨some '"', false⟩ :=
  next_of_isDigit_eq_false (by decide) rfl

/-- Behind a digit a parameter goes on if it has come so far. -/
theorem next_of_isDigit (digit : c.isDigit = true) : p.next c = ⟨some c, p.inParameter⟩ := by
  have hdollar : c ≠ '$' := ne_of_isDigit digit rfl
  simp [next, hdollar, digit]

/-- Behind the dollar of a parameter its digits follow. -/
theorem next_dollar (hword : p.inWord = false) : p.next '$' = ⟨some '$', true⟩ := by
  simp [next, hword]

end Place

/-! ### Settled texts -/

/-- Outside quoted identifiers the character `c` stands for itself at the place `p` and in front of
`rest`: nothing that is replaced begins with it. -/
structure Stands (replaceDigits : Bool) (p : Place) (c : Char) (rest : List Char) : Prop where
  ne_quote : c ≠ '\''
  head_of_dash : c = '-' → rest.head? ≠ some '-'
  head_of_slash : c = '/' → rest.head? ≠ some '*'
  tag_of_dollar : c = '$' → p.inWord = false →
    rest.head?.any Char.isDigit = true ∨ (rest.dropWhile isTagChar).head? ≠ some '$'
  place_of_digit : c.isDigit = true →
    p.inWord = true ∧ (replaceDigits = true → p.inParameter = true)
  place_of_blank : Text.isBlank c = true → c = ' ' ∧ p.last.any (· != ' ') = true

/-- Each character of the text that is not within a quoted identifier stands for itself, and the
text does not end within one. The flag says whether it begins within one. -/
def Settled (replaceDigits : Bool) : (quoted : Bool) → Place → List Char → Prop
  | quoted, _, [] => quoted = false
  | quoted, p, c :: rest =>
    if c = '"' then Settled replaceDigits (!quoted) (p.next c) rest
    else (quoted = false → Stands replaceDigits p c rest) ∧
      Settled replaceDigits quoted (p.next c) rest

variable {replaceDigits quoted : Bool} {p : Place} {c : Char} {rest rest' text : List Char}

@[simp] theorem settled_nil : Settled replaceDigits quoted p [] ↔ quoted = false := Iff.rfl

@[simp] theorem settled_quote :
    Settled replaceDigits quoted p ('"' :: rest) ↔
      Settled replaceDigits (!quoted) (p.next '"') rest := by
  rw [Settled, if_pos rfl]

theorem settled_cons (hc : c ≠ '"') :
    Settled replaceDigits quoted p (c :: rest) ↔
      (quoted = false → Stands replaceDigits p c rest) ∧
        Settled replaceDigits quoted (p.next c) rest := by
  rw [Settled, if_neg hc]

/-- Many characters stand for themselves everywhere, question marks among them. -/
theorem Stands.of_plain (hquote : c ≠ '\'') (hdash : c ≠ '-') (hslash : c ≠ '/') (hdollar : c ≠ '$')
    (hdigit : c.isDigit = false) (hblank : Text.isBlank c = false) :
    Stands replaceDigits p c rest where
  ne_quote := hquote
  head_of_dash := fun h => absurd h hdash
  head_of_slash := fun h => absurd h hslash
  tag_of_dollar := fun h => absurd h hdollar
  place_of_digit := fun h => by simp [hdigit] at h
  place_of_blank := fun h => by simp [hblank] at h

theorem stands_placeholder : Stands replaceDigits p '?' rest :=
  .of_plain (by decide) (by decide) (by decide) (by decide) rfl rfl

/-- A digit stands for itself within a word. If such digits are replaced, it has to be part of a
parameter. -/
theorem Stands.of_digit (digit : c.isDigit = true) (hword : p.inWord = true)
    (hkeep : replaceDigits = true → p.inParameter = true) : Stands replaceDigits p c rest where
  ne_quote := ne_of_isDigit digit rfl
  head_of_dash := fun h => absurd h (ne_of_isDigit digit rfl)
  head_of_slash := fun h => absurd h (ne_of_isDigit digit rfl)
  tag_of_dollar := fun h => absurd h (ne_of_isDigit digit rfl)
  place_of_digit := fun _ => ⟨hword, hkeep⟩
  place_of_blank := fun h => by simp [isDigit_eq_false_of_isBlank h] at digit

/-- What stands for itself still does so if another text follows that begins alike. -/
theorem Stands.replace_rest (h : Stands replaceDigits p c rest)
    (hhead : rest' = [] ∨ rest'.head? = rest.head?)
    (htag : (rest'.dropWhile isTagChar).head? = some '$' →
      (rest.dropWhile isTagChar).head? = some '$') :
    Stands replaceDigits p c rest' := by
  refine ⟨h.ne_quote, fun hc => ?_, fun hc => ?_, fun hc hword => ?_, h.place_of_digit,
    h.place_of_blank⟩
  · rcases hhead with rfl | hhead
    · simp
    · exact hhead ▸ h.head_of_dash hc
  · rcases hhead with rfl | hhead
    · simp
    · exact hhead ▸ h.head_of_slash hc
  · rcases hhead with rfl | hhead
    · exact .inr (by simp)
    · rcases h.tag_of_dollar hc hword with digit | unopened
      · exact .inl (hhead ▸ digit)
      · exact .inr fun opened => unopened (htag opened)

/-! ### Parts of settled texts -/

/-- What is left behind a part without quotes is settled. -/
theorem Settled.drop {front : List Char} (hfront : '"' ∉ front)
    (h : Settled replaceDigits quoted p (front ++ rest)) :
    Settled replaceDigits quoted (p.after front) rest := by
  induction front generalizing p with
  | nil => exact h
  | cons c front ih =>
    obtain ⟨hc, hfront⟩ : c ≠ '"' ∧ '"' ∉ front := by
      simpa [eq_comm, not_or] using hfront
    rw [List.cons_append, settled_cons hc] at h
    exact ih hfront h.2

/-- What is left before a part without quotes is settled. -/
theorem Settled.of_append {back : List Char} (hback : '"' ∉ back)
    (h : Settled replaceDigits quoted p (text ++ back)) :
    Settled replaceDigits quoted p text := by
  induction text generalizing p quoted with
  | nil =>
    -- a quoted identifier that is open here would not be closed within `back`
    have hend : Settled replaceDigits quoted (p.after back) [] := .drop hback (by simpa using h)
    exact settled_nil.mpr (settled_nil.mp hend)
  | cons c text ih =>
    rw [List.cons_append] at h
    by_cases hc : c = '"'
    · subst hc
      rw [settled_quote] at h ⊢
      exact ih h
    · rw [settled_cons hc] at h ⊢
      refine ⟨fun hquoted => (h.1 hquoted).replace_rest ?_ fun opened => ?_, ih h.2⟩
      · cases text with
        | nil => exact .inl rfl
        | cons d text => exact .inr rfl
      · rw [List.dropWhile_append]
        split
        · rename_i hend
          rw [List.isEmpty_iff.mp hend] at opened
          cases opened
        · rw [List.head?_append, opened, Option.some_or]

/-- Outside quoted identifiers the character behind any part of a settled text stands for itself. -/
theorem Settled.stands {front : List Char}
    (h : Settled replaceDigits quoted p (front ++ c :: rest)) (hc : c ≠ '"')
    (hquoted : (quoted ^^ decide (front.count '"' % 2 = 1)) = false) :
    Stands replaceDigits (p.after front) c rest := by
  induction front generalizing p quoted with
  | nil =>
    rw [List.nil_append, settled_cons hc] at h
    exact h.1 (by simpa using hquoted)
  | cons d front ih =>
    rw [List.cons_append] at h
    by_cases hd : d = '"'
    · subst hd
      rw [settled_quote] at h
      refine ih h ?_
      rw [List.count_cons_self] at hquoted
      rcases Nat.mod_two_eq_zero_or_one (front.count '"') with even | odd
      · have : (front.count '"' + 1) % 2 = 1 := by omega
        simpa [this, even] using hquoted
      · have : (front.count '"' + 1) % 2 = 0 := by omega
        simpa [this, odd] using hquoted
    · rw [settled_cons hd] at h
      exact ih h.2 (by rwa [List.count_cons_of_ne hd] at hquoted)

/-! ### The scan of a settled text -/

/-- A quoted identifier is closed, and what follows it is settled. -/
theorem Settled.exists_closed (h : Settled replaceDigits true p rest) :
    ∃ body after, rest = body ++ after ∧ afterQuote? '"' false rest = some after ∧
      body.getLast? = some '"' ∧ Settled replaceDigits false ⟨some '"', false⟩ after := by
  -- doubled quotes take two characters, so the induction is on the length
  induction hn : rest.length using Nat.strongRecOn generalizing p rest with
  | _ n ih =>
    subst hn
    cases rest with
    | nil => simp at h
    | cons c rest =>
      by_cases hc : c = '"'
      · subst hc
        rw [settled_quote, Place.next_quote, Bool.not_true] at h
        by_cases hdoubled : rest.head? = some '"'
        · obtain ⟨rest, rfl⟩ := List.head?_eq_some_iff.mp hdoubled
          rw [settled_quote, Bool.not_false] at h
          have hshorter : rest.length < ('"' :: '"' :: rest).length :=
            Nat.lt_add_of_pos_right Nat.two_pos
          obtain ⟨body, after, rfl, hclosed, hlast, hafter⟩ := ih rest.length hshorter h rfl
          refine ⟨'"' :: '"' :: body, after, rfl, (afterQuote?_doubled rfl).trans hclosed, ?_,
            hafter⟩
          rw [List.getLast?_cons, List.getLast?_cons, hlast]
          rfl
        · exact ⟨['"'], rest, rfl, afterQuote?_closed rfl hdoubled, rfl, h⟩
      · rw [settled_cons hc] at h
        obtain ⟨body, after, rfl, hclosed, hlast, hafter⟩ := ih rest.length (by simp) h.2 rfl
        refine ⟨c :: body, after, rfl, (afterQuote?_cons rfl hc).trans hclosed, ?_, hafter⟩
        rw [List.getLast?_cons, hlast]
        rfl

/-- Behind the dollar of a parameter, its digits leave the place within it. -/
theorem Place.after_digits {first : Char} {digits : List Char}
    (h : ∀ c ∈ digits, c.isDigit = true) :
    Place.after ⟨some first, true⟩ digits = ⟨(first :: digits).getLast?, true⟩ := by
  induction digits generalizing first with
  | nil => rfl
  | cons c digits ih =>
    have digit : c.isDigit = true := h c List.mem_cons_self
    rw [Place.after_cons, Place.next_of_isDigit digit,
      ih fun d hd => h d (List.mem_cons_of_mem c hd), List.getLast?_cons_cons]

theorem isDigit_of_mem_takeWhile (h : c ∈ text.takeWhile Char.isDigit) : c.isDigit = true :=
  List.all_eq_true.mp List.all_takeWhile c h

/-- Behind the digits of a parameter the text is settled. -/
theorem Settled.drop_digits {first : Char}
    (h : Settled replaceDigits false ⟨some first, true⟩ rest) :
    Settled replaceDigits false ⟨(first :: rest.takeWhile Char.isDigit).getLast?, true⟩
      (rest.dropWhile Char.isDigit) := by
  have hdigits : ∀ d ∈ rest.takeWhile Char.isDigit, d.isDigit = true :=
    fun _ => isDigit_of_mem_takeWhile
  rw [← List.takeWhile_append_dropWhile (p := Char.isDigit) (l := rest)] at h
  have hafter := h.drop fun hmem => by cases hdigits _ hmem
  rwa [Place.after_digits hdigits] at hafter

theorem Place.inWord_eq (written : List Char) (inParameter : Bool) :
    Place.inWord ⟨written.head?, inParameter⟩ = (Before.ofReversed written).inWord := by
  cases written <;> rfl

/-- A lexeme that is written as it stands, in front of a text that is copied. -/
private theorem scan_eq_of_verbatim {written front after : List Char} {total : Nat}
    (hread : Reads replaceDigits (Before.ofReversed written) c rest (.verbatim front) after)
    (htext : c :: rest = front ++ after)
    (hafter : scan replaceDigits total (front.reverse ++ written) after =
      .ok (after.reverse ++ (front.reverse ++ written))) :
    scan replaceDigits total written (c :: rest) = .ok ((c :: rest).reverse ++ written) := by
  rw [scan_cons_of_reads hread, Piece.appendTo, hafter, htext, List.reverse_append,
    List.append_assoc]

/-- The scan copies a settled text. If it is within a parameter, it has read all its digits. -/
theorem Settled.scan_eq {written : List Char} {inParameter : Bool} {total : Nat}
    (h : Settled replaceDigits false ⟨written.head?, inParameter⟩ text)
    (hhead : text.head?.any Char.isDigit = true → inParameter = false) :
    scan replaceDigits total written text = .ok (text.reverse ++ written) := by
  induction hn : text.length using Nat.strongRecOn generalizing written inParameter text with
  | _ n ih =>
    subst hn
    cases text with
    | nil => exact scan_nil
    | cons c rest =>
      -- the cases in which a lexeme of more than one character may begin come first
      by_cases hc : c = '"'
      · subst hc
        rw [settled_quote, Bool.not_false] at h
        obtain ⟨body, after, rfl, hclosed, hlast, hafter⟩ := h.exists_closed
        refine scan_eq_of_verbatim (.quotedIdentifier hclosed) rfl ?_
        have hshorter : after.length < ('"' :: (body ++ after)).length := by
          rw [List.length_cons, List.length_append]
          omega
        refine ih after.length hshorter ?_ (fun _ => rfl) rfl
        rwa [List.head?_append, List.head?_reverse, List.getLast?_cons, hlast]
      rw [settled_cons hc] at h
      obtain ⟨hstands, hrest⟩ := h
      have hstands := hstands rfl
      have hword := Place.inWord_eq written inParameter
      by_cases hdollar : c = '$' ∧ (Before.ofReversed written).inWord = false
      · obtain ⟨rfl, hout⟩ := hdollar
        rw [Place.next_dollar (hword.trans hout)] at hrest
        cases digit : rest.head?.any Char.isDigit with
        | true =>
          -- a parameter, which is read with all its digits
          have hsplit : rest = rest.takeWhile Char.isDigit ++ rest.dropWhile Char.isDigit :=
            List.takeWhile_append_dropWhile.symm
          have hafter := hrest.drop_digits
          refine scan_eq_of_verbatim (.parameter hout digit) (congrArg _ hsplit) ?_
          refine @ih _ ?_ (rest.dropWhile Char.isDigit) _ true ?_ (fun hmore => ?_) rfl
          · have hle := (List.dropWhile_sublist (l := rest) Char.isDigit).length_le
            rw [List.length_cons]
            omega
          · rw [List.getLast?_cons] at hafter
            rwa [List.head?_append, List.head?_reverse, List.getLast?_cons]
          · rw [any_head?_dropWhile] at hmore
            cases hmore
        | false =>
          have hopened :=
            (hstands.tag_of_dollar rfl (hword.trans hout)).resolve_left (by simp [digit])
          refine scan_eq_of_verbatim (.dollar hout digit hopened) rfl ?_
          exact ih rest.length (by simp) hrest (fun h => by simp [digit] at h) rfl
      by_cases digit : c.isDigit = true
      · obtain ⟨hin, hkeep⟩ := hstands.place_of_digit digit
        have hout : inParameter = false := hhead digit
        refine scan_eq_of_verbatim (.digitInWord digit (hword.symm.trans hin) ?_) rfl ?_
        · simpa [hout] using hkeep
        · refine ih rest.length (by simp) hrest (fun _ => ?_) rfl
          have hdollar : c ≠ '$' := ne_of_isDigit digit rfl
          simp [hdollar, hout]
      by_cases hblank : Text.isBlank c = true
      · obtain ⟨rfl, hlast⟩ := hstands.place_of_blank hblank
        rw [Place.next_of_isDigit_eq_false (by decide) rfl] at hrest
        have hspace : ¬(written.isEmpty || written.head? == some ' ') = true := by
          cases written with
          | nil => simp at hlast
          | cons d written => simpa using hlast
        rw [scan_cons_of_reads (.blank hblank), Piece.appendTo, if_neg hspace,
          @ih rest.length (by simp) rest (' ' :: written) false hrest (fun _ => rfl) rfl]
        simp
      have hin : c = '$' → (Before.ofReversed written).inWord = true :=
        fun h => by simpa using fun hout => hdollar ⟨h, hout⟩
      -- nothing begins here, and no parameter goes on behind the character
      refine scan_eq_of_verbatim (.other hstands.ne_quote hc hstands.head_of_dash
        hstands.head_of_slash hin (by simpa using digit) (by simpa using hblank)) rfl ?_
      refine ih rest.length (by simp) hrest (fun _ => ?_) rfl
      by_cases hc : c = '$'
      · simpa [Place.next, hc] using hword.trans (hin hc)
      · simp [hc, digit]

end Redaction

end QueryTelemetry
