import QueryTelemetry.Proofs.Redaction.Settled

/-!
# What the scan writes is settled

The scan writes to the end of a text, except that a string takes away the `E` before it. What stays
of the text written so far is therefore known when the next character is (`kept`), and everything
that is written from there on continues it in a settled way (`Continues`). The proof goes backwards
from the end of the statement, since whether a character stands for itself depends on what is
written behind it.
-/

namespace QueryTelemetry

namespace Redaction

/-! ### What is written from some place on -/

/-- What stays of a text, given last character first, in front of what is still to be read. -/
def kept (written rest : List Char) : List Char :=
  if (Before.ofReversed written).escapeMark = true ∧ rest.head? = some '\'' then written.drop 1
  else written

/-- The text `more` continues a settled text that ends in `last`, and it stands for `rest`. So that
the two together are settled, it must not complete what the text before only seemed to begin: it
begins like `rest`, unless something is replaced there, and it has the dollar that would close a tag
only if `rest` has it. -/
structure Continues (replaceDigits : Bool) (last : Option Char) (rest more : List Char) :
    Prop where
  settled : ∀ inParameter, Settled replaceDigits false ⟨last, inParameter⟩ more
  head : last.any (· != ' ') = true →
    more.head? = rest.head? ∨ more.head? = some '?' ∨ more.head? = some ' '
  tag : last.any isWordChar = true → (rest.dropWhile isTagChar).head? ≠ some '$' →
    (more.dropWhile isTagChar).head? ≠ some '$'

variable {replaceDigits : Bool} {last : Option Char} {c : Char}
  {written rest rest' more out : List Char}

theorem isWordChar_of_isTagChar (h : isTagChar c = true) : isWordChar c = true := by
  rw [isTagChar, Bool.or_eq_true] at h
  rcases h with h | h <;> simp [isWordChar, h]

theorem isWordChar_of_isDigit (h : c.isDigit = true) : isWordChar c = true := by
  have : Text.isAlphanumeric c = true :=
    Text.isAlphanumeric_of_isAlphanum (by simp [Char.isAlphanum, h])
  simp [isWordChar, this]

theorem kept_of_ne (hc : c ≠ '\'') : kept written (c :: rest) = written := by
  simp [kept, hc]

theorem kept_of_escapeMark (h : (Before.ofReversed written).escapeMark = false) :
    kept written rest = written := by
  simp [kept, h]

/-- Only an `E` is taken away. -/
theorem kept_cons (hupper : c ≠ 'E') (hlower : c ≠ 'e') :
    kept (c :: written) rest = c :: written :=
  kept_of_escapeMark (by simp [Before.ofReversed, hupper, hlower])

/-- The end of the statement continues everything. -/
theorem Continues.nil : Continues replaceDigits last [] [] :=
  ⟨fun _ => rfl, fun _ => .inl rfl, fun _ h => h⟩

/-- Behind a space and at the start of a text there is nothing to complete. -/
theorem Continues.of_gap (hlast : last.any (· != ' ') = false)
    (h : Continues replaceDigits last rest' more) : Continues replaceDigits last rest more := by
  refine ⟨h.settled, fun hother => ?_, fun hword => ?_⟩
  · rw [hlast] at hother
    cases hother
  · cases last with
    | none => cases hword
    | some d =>
      obtain rfl : d = ' ' := by simpa using hlast
      cases hword

/-- A question mark or a space that stands for itself continues everything. -/
private theorem Continues.replaced (hc : c = '?' ∨ c = ' ')
    (hstands : ∀ inParameter, Stands replaceDigits ⟨last, inParameter⟩ c more)
    (h : Continues replaceDigits (some c) rest' more) :
    Continues replaceDigits last rest (c :: more) := by
  obtain ⟨hquote, hdigit, hdollar, htag⟩ :
      c ≠ '"' ∧ c.isDigit = false ∧ c ≠ '$' ∧ ¬ isTagChar c = true := by
    rcases hc with rfl | rfl <;> decide
  refine ⟨fun inParameter => ?_, fun _ => .inr ?_, fun _ _ => ?_⟩
  · exact (settled_cons hquote).mpr ⟨fun _ => hstands inParameter, h.settled _⟩
  · simpa using hc
  · rw [List.dropWhile_cons_of_neg htag]
    simpa using hdollar

/-- A question mark continues everything. -/
theorem Continues.placeholder (h : Continues replaceDigits (some '?') rest' more) :
    Continues replaceDigits last rest ('?' :: more) :=
  .replaced (.inl rfl) (fun _ => stands_placeholder) h

/-- A space continues everything but a space and the start of a text. -/
theorem Continues.space (hlast : last.any (· != ' ') = true)
    (h : Continues replaceDigits (some ' ') rest' more) :
    Continues replaceDigits last rest (' ' :: more) := by
  refine .replaced (.inr rfl) (fun _ => ?_) h
  refine ⟨by decide, fun h => ?_, fun h => ?_, fun h => ?_, fun h => ?_, fun _ => ⟨rfl, hlast⟩⟩ <;>
    simp at h

/-- A character that stands for itself in front of `more` continues what it continues in front of
`rest`. -/
theorem Continues.verbatim (hc : c ≠ '"')
    (hstands : ∀ inParameter, Stands replaceDigits ⟨last, inParameter⟩ c more)
    (h : Continues replaceDigits (some c) rest more) :
    Continues replaceDigits last (c :: rest) (c :: more) := by
  refine ⟨fun inParameter => ?_, fun _ => .inl rfl, fun _ hopened => ?_⟩
  · exact (settled_cons hc).mpr ⟨fun _ => hstands inParameter, h.settled _⟩
  · by_cases htag : isTagChar c = true
    · rw [List.dropWhile_cons_of_pos htag] at hopened ⊢
      exact h.tag (isWordChar_of_isTagChar htag) hopened
    · rwa [List.dropWhile_cons_of_neg htag] at hopened ⊢

/-- A settled text continues what begins with the same character, if that is not part of a tag. -/
theorem Continues.of_settled (hc : isTagChar c = false)
    (h : ∀ inParameter, Settled replaceDigits false ⟨last, inParameter⟩ (c :: more)) :
    Continues replaceDigits last (c :: rest) (c :: more) := by
  refine ⟨h, fun _ => .inl rfl, fun _ hopened => ?_⟩
  have htag : ¬ isTagChar c = true := by simp [hc]
  rwa [List.dropWhile_cons_of_neg htag] at hopened ⊢

/-- A character that is read alone stands for itself in what is written. -/
theorem Continues.stands_of_other {p : Place} (hstring : c ≠ '\'')
    (hdash : c = '-' → rest.head? ≠ some '-') (hslash : c = '/' → rest.head? ≠ some '*')
    (hdollar : c = '$' → p.inWord = true) (digit : c.isDigit = false)
    (hblank : Text.isBlank c = false) (h : Continues replaceDigits (some c) rest more) :
    Stands replaceDigits p c more := by
  have hnext : (some c).any (· != ' ') = true := by
    simpa using ne_of_apply_ne Text.isBlank (by rw [hblank]; decide)
  refine ⟨hstring, fun hc => ?_, fun hc => ?_, fun hc hout => ?_, fun h => ?_, fun h => ?_⟩
  · rcases h.head hnext with h | h | h
    · exact h ▸ hdash hc
    · simp [h]
    · simp [h]
  · rcases h.head hnext with h | h | h
    · exact h ▸ hslash hc
    · simp [h]
    · simp [h]
  · rw [hdollar hc] at hout
    cases hout
  · simp [digit] at h
  · simp [hblank] at h

/-! ### Longer lexemes that are written as they stand -/

/-- What a quoted identifier holds is settled up to its closing quote. -/
theorem exists_settled_of_afterQuote? {text after : List Char}
    (h : afterQuote? '"' false text = some after) :
    ∃ body, text = body ++ after ∧ body.getLast? = some '"' ∧
      ∀ p more, Settled replaceDigits false ⟨some '"', false⟩ more →
        Settled replaceDigits true p (body ++ more) := by
  fun_induction afterQuote? '"' false text with
  | case1 => cases h
  | case2 _ escape => cases escape
  | case3 =>
    obtain rfl := Option.some.inj h
    exact ⟨['"'], rfl, rfl, fun p more hmore => settled_quote.mpr (Place.next_quote ▸ hmore)⟩
  | case4 => cases h
  | case5 _ _ _ escape => cases escape
  | case6 rest _ ih =>
    obtain ⟨body, rfl, hlast, hbody⟩ := ih h
    refine ⟨'"' :: '"' :: body, rfl, by simp [List.getLast?_cons, hlast], fun p more hmore => ?_⟩
    exact settled_quote.mpr (settled_quote.mpr (hbody _ more hmore))
  | case7 d rest =>
    obtain rfl := Option.some.inj h
    exact ⟨['"'], rfl, rfl, fun p more hmore => settled_quote.mpr (Place.next_quote ▸ hmore)⟩
  | case8 c d rest _ hc ih =>
    obtain ⟨body, htext, hlast, hbody⟩ := ih h
    refine ⟨c :: body, by rw [htext, List.cons_append], by simp [List.getLast?_cons, hlast],
      fun p more hmore => ?_⟩
    exact (settled_cons hc).mpr ⟨fun quoted => (by cases quoted), hbody _ more hmore⟩

/-- The digits of a parameter are settled. -/
theorem settled_digits {first : Char} {digits : List Char} (hfirst : isWordChar first = true)
    (hdigits : ∀ d ∈ digits, d.isDigit = true)
    (hmore : Settled replaceDigits false ⟨(first :: digits).getLast?, true⟩ more) :
    Settled replaceDigits false ⟨some first, true⟩ (digits ++ more) := by
  induction digits generalizing first with
  | nil => exact hmore
  | cons d digits ih =>
    have digit : d.isDigit = true := hdigits d List.mem_cons_self
    rw [List.cons_append, settled_cons (ne_of_isDigit digit rfl), Place.next_of_isDigit digit]
    rw [List.getLast?_cons_cons] at hmore
    exact ⟨fun _ => .of_digit digit hfirst fun _ => rfl, ih (isWordChar_of_isDigit digit)
      (fun c hc => hdigits c (List.mem_cons_of_mem d hc)) hmore⟩

/-- A parameter is settled. -/
theorem exists_settled_of_parameter (digit : rest.head?.any Char.isDigit = true) :
    ∃ d, (('$' :: rest.takeWhile Char.isDigit).getLast? = some d ∧ d ≠ 'E' ∧ d ≠ 'e') ∧
      ∀ p more, p.inWord = false → Settled replaceDigits false ⟨some d, true⟩ more →
        Settled replaceDigits false p ('$' :: (rest.takeWhile Char.isDigit ++ more)) := by
  have hdigits : ∀ d ∈ rest.takeWhile Char.isDigit, d.isDigit = true :=
    fun _ => isDigit_of_mem_takeWhile
  cases rest with
  | nil => cases digit
  | cons first rest =>
    have hfirst : first.isDigit = true := digit
    rw [List.takeWhile_cons_of_pos hfirst] at hdigits ⊢
    generalize rest.takeWhile Char.isDigit = digits at hdigits ⊢
    obtain ⟨d, hd⟩ : ∃ d, (first :: digits).getLast? = some d := ⟨_, List.getLast?_cons⟩
    have hlast : d.isDigit = true := hdigits d (List.mem_of_getLast? hd)
    refine ⟨d, ⟨by rw [List.getLast?_cons_cons, hd], ne_of_isDigit hlast rfl,
      ne_of_isDigit hlast rfl⟩, fun p more hword hmore => ?_⟩
    rw [settled_cons (by decide), Place.next_dollar hword]
    refine ⟨fun _ => ?_, settled_digits rfl hdigits ?_⟩
    · refine ⟨by decide, fun h => ?_, fun h => ?_, fun _ _ => .inl hfirst, fun h => ?_,
        fun h => ?_⟩
      all_goals cases h
    · rwa [List.getLast?_cons_cons, hd]

/-! ### The scan -/

/-- The text `out`, last character first, is the written text, as far as it stays in front of
`rest`, with a text that stands for `rest`. -/
def Extends (replaceDigits : Bool) (written rest out : List Char) : Prop :=
  ∃ more, out = more.reverse ++ kept written rest ∧
    Continues replaceDigits (kept written rest).head? rest more

namespace Extends

variable {after : List Char}

theorem placeholder (hc : c ≠ '\'') (h : Extends replaceDigits ('?' :: written) after out) :
    Extends replaceDigits written (c :: rest) out := by
  obtain ⟨more, rfl, hmore⟩ := h
  rw [kept_cons (by decide) (by decide)] at hmore ⊢
  refine ⟨'?' :: more, ?_, hmore.placeholder⟩
  rw [kept_of_ne hc, List.reverse_cons, List.append_assoc, List.singleton_append]

theorem blank (hc : c ≠ '\'') (h : Extends replaceDigits (Piece.blank.appendTo written) after out) :
    Extends replaceDigits written (c :: rest) out := by
  obtain ⟨more, rfl, hmore⟩ := h
  have hkept : kept written (c :: rest) = written := kept_of_ne hc
  cases written with
  | nil => exact ⟨more, rfl, hmore.of_gap rfl⟩
  | cons d written =>
    by_cases hd : d = ' '
    · subst hd
      have hsame : Piece.blank.appendTo (' ' :: written) = ' ' :: written := rfl
      rw [hsame, kept_cons (by decide) (by decide)] at hmore ⊢
      exact ⟨more, by rw [hkept], hkept ▸ hmore.of_gap rfl⟩
    · have hspace : Piece.blank.appendTo (d :: written) = ' ' :: d :: written := by
        simp [Piece.appendTo, hd]
      rw [hspace, kept_cons (by decide) (by decide)] at hmore ⊢
      refine ⟨' ' :: more, by simp [hkept], ?_⟩
      rw [hkept]
      exact hmore.space (by simpa using hd)

theorem verbatim (hc : c ≠ '\'') (hquote : c ≠ '"')
    (hkept : kept (c :: written) rest = c :: written)
    (hstands : ∀ more inParameter, Continues replaceDigits (some c) rest more →
      Stands replaceDigits ⟨written.head?, inParameter⟩ c more)
    (h : Extends replaceDigits (c :: written) rest out) :
    Extends replaceDigits written (c :: rest) out := by
  obtain ⟨more, rfl, hmore⟩ := h
  rw [hkept] at hmore ⊢
  refine ⟨c :: more, by simp [kept_of_ne hc], ?_⟩
  rw [kept_of_ne hc]
  exact hmore.verbatim hquote fun inParameter => hstands more inParameter hmore

theorem verbatim_of_settled {body : List Char} {d : Char} (hc : c ≠ '\'')
    (htag : isTagChar c = false) (hlast : (c :: body).getLast? = some d) (hupper : d ≠ 'E')
    (hlower : d ≠ 'e')
    (hsettled : ∀ more inParameter, Settled replaceDigits false ⟨some d, c == '$'⟩ more →
      Settled replaceDigits false ⟨written.head?, inParameter⟩ (c :: (body ++ more)))
    (h : Extends replaceDigits ((c :: body).reverse ++ written) after out) :
    Extends replaceDigits written (c :: rest) out := by
  obtain ⟨more, rfl, hmore⟩ := h
  obtain ⟨front, hfront⟩ := List.getLast?_eq_some_iff.mp hlast
  have hwritten : (c :: body).reverse ++ written = d :: (front.reverse ++ written) := by
    simp [hfront]
  have hkept : kept ((c :: body).reverse ++ written) after = (c :: body).reverse ++ written := by
    rw [hwritten, kept_cons hupper hlower]
  rw [hkept] at hmore ⊢
  refine ⟨c :: (body ++ more), by simp [kept_of_ne hc], ?_⟩
  rw [kept_of_ne hc]
  rw [hwritten, List.head?_cons] at hmore
  exact .of_settled htag fun inParameter => hsettled more inParameter (hmore.settled _)

/-- An `E` that the string behind it takes away leaves nothing. -/
theorem of_mark (hkept : kept (c :: written) rest ≠ c :: written)
    (h : Extends replaceDigits (c :: written) rest out) :
    Extends replaceDigits written (c :: rest) out := by
  have hstring : (Before.ofReversed (c :: written)).escapeMark = true ∧ rest.head? = some '\'' :=
    Decidable.of_not_not fun h => hkept (if_neg h)
  have hdropped : kept (c :: written) rest = written := if_pos hstring
  obtain ⟨hletter, hout⟩ : (c = 'E' ∨ c = 'e') ∧ written.head?.any isWordChar = false := by
    simpa [Before.ofReversed] using hstring.1
  have hsame : kept written (c :: rest) = written :=
    kept_of_ne (by rcases hletter with rfl | rfl <;> decide)
  obtain ⟨more, rfl, hmore⟩ := h
  rw [hdropped] at hmore ⊢
  refine ⟨more, by rw [hsame], ?_⟩
  rw [hsame]
  refine ⟨hmore.settled, fun hlast => ?_, fun hword => ?_⟩
  · -- `rest` begins with the string, and what is written never begins with a quote
    refine .inr ((hmore.head hlast).resolve_left fun hquote => ?_)
    obtain ⟨more, rfl⟩ := List.head?_eq_some_iff.mp (hquote.trans hstring.2)
    exact (((settled_cons (by decide)).mp (hmore.settled false)).1 rfl).ne_quote rfl
  · rw [hout] at hword
    cases hword

end Extends

/-- What the scan writes continues what it has written so far. -/
theorem extends_of_scan {total : Nat} (h : scan replaceDigits total written rest = .ok out) :
    Extends replaceDigits written rest out := by
  fun_induction scan replaceDigits total written rest with
  | case1 written =>
    obtain rfl := Except.ok.inj h
    exact ⟨[], by simp [kept], .nil⟩
  | case2 => cases h
  | case3 written first rest piece after hread ih =>
    have hafter := ih h
    cases reads_of_lexeme hread with
    | @stringLiteral rest after closed =>
      -- the question mark stands for the string together with the `E` before it, if there is one
      have hwritten : Piece.appendTo
          (if (Before.ofReversed written).escapeMark then .placeholderForMark else .placeholder)
          written = '?' :: kept written ('\'' :: rest) := by
        cases hmark : (Before.ofReversed written).escapeMark <;>
          simp [kept, hmark, Piece.appendTo]
      obtain ⟨more, rfl, hmore⟩ := hafter
      rw [hwritten, kept_cons (by decide) (by decide)] at hmore ⊢
      exact ⟨'?' :: more, by simp, hmore.placeholder⟩
    | quotedIdentifier closed =>
      obtain ⟨body, htext, hlast, hbody⟩ := @exists_settled_of_afterQuote? replaceDigits _ _ closed
      obtain rfl := List.append_cancel_right htext
      refine hafter.verbatim_of_settled (by decide) (by decide) (d := '"') ?_ (by decide)
        (by decide) fun more inParameter hmore => settled_quote.mpr (hbody _ more hmore)
      rw [List.getLast?_cons, hlast]
      rfl
    | lineComment next => exact hafter.blank (by decide)
    | blockComment next closed => exact hafter.blank (by decide)
    | parameter hword digit =>
      obtain ⟨d, hlast, hsettled⟩ := @exists_settled_of_parameter replaceDigits rest digit
      refine hafter.verbatim_of_settled (by decide) (by decide) hlast.1 hlast.2.1 hlast.2.2
        fun more inParameter hmore => hsettled _ more ((Place.inWord_eq _ _).trans hword) hmore
    | dollarQuoted hword digit opened closed => exact hafter.placeholder (by decide)
    | dollar hword digit unopened =>
      refine hafter.verbatim (by decide) (by decide) (kept_cons (by decide) (by decide))
        fun more inParameter hmore => ?_
      refine ⟨by decide, fun h => ?_, fun h => ?_, fun _ _ => .inr (hmore.tag rfl unopened),
        fun h => ?_, fun h => ?_⟩
      all_goals cases h
    | number digit hword => exact hafter.placeholder (ne_of_isDigit digit rfl)
    | digitsInWord digit hword hreplace => exact hafter.placeholder (ne_of_isDigit digit rfl)
    | digitInWord digit hword hkeep =>
      have other : ∀ c : Char, c.isDigit = false → first ≠ c := fun _ => ne_of_isDigit digit
      refine hafter.verbatim (other '\'' rfl) (other '"' rfl)
        (kept_cons (other 'E' rfl) (other 'e' rfl)) fun more inParameter hmore => ?_
      exact .of_digit digit ((Place.inWord_eq written inParameter).trans hword)
        fun h => by simp [hkeep] at h
    | blank hblank => exact hafter.blank (ne_of_isBlank hblank (by decide))
    | other hstring hidentifier hdash hslash hdollar digit hblank =>
      -- the character stays, unless it is the `E` of a string that follows
      by_cases hkept : kept (first :: written) rest = first :: written
      · refine hafter.verbatim hstring hidentifier hkept fun more inParameter hmore => ?_
        exact hmore.stands_of_other hstring hdash hslash
          (fun hc => (Place.inWord_eq written inParameter).trans (hdollar hc)) digit hblank
      · exact hafter.of_mark hkept

/-- What the scan writes of a statement is settled. -/
theorem settled_of_scan {total : Nat} (h : scan replaceDigits total [] rest = .ok out) :
    Settled replaceDigits false Place.start out.reverse := by
  obtain ⟨more, rfl, hmore⟩ := extends_of_scan h
  rw [kept_of_escapeMark rfl] at hmore ⊢
  rw [List.append_nil, List.reverse_reverse]
  exact hmore.settled false

end Redaction

end QueryTelemetry
