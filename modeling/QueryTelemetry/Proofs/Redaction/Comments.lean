import Mathlib.Data.List.TakeWhile
import QueryTelemetry.Proofs.Redaction.Locality

/-!
# Comments are gaps

Blanks and comments stand between the other lexemes of a statement, and a single space in the place
of such a gap leaves the same of the statement (`strip_replace_gap`). So nothing from inside a
comment is left.

There is one exception. In the database block comments nest: what has been opened within a comment
has to be closed before the comment itself is. The scan knows no depth and goes on behind the first
closing. From there on it takes the comment for a part of the statement.
-/

namespace QueryTelemetry

namespace Redaction

/-! ### Gaps -/

/-- What follows a block comment in which `depth` comments are open. Each opening needs a closing of
its own. -/
def afterNested? : (depth : Nat) → List Char → Option (List Char)
  | 0, rest => some rest
  | _ + 1, [] => none
  | _ + 1, [_] => none
  | depth + 1, c :: d :: rest =>
    if c = '*' ∧ d = '/' then afterNested? depth rest
    else if c = '/' ∧ d = '*' then afterNested? (depth + 2) rest
    else afterNested? (depth + 1) (d :: rest)

/-- A gap in front of a text: blanks, a comment up to and including the end of its line, a comment
on the last line, or a block comment. -/
inductive IsGap : (gap after : List Char) → Prop
  | blanks {gap after : List Char} :
      gap ≠ [] → (∀ c ∈ gap, Text.isBlank c = true) → IsGap gap after
  | lineComment {body after : List Char} :
      '\n' ∉ body → IsGap ('-' :: '-' :: (body ++ ['\n'])) after
  | lastComment {body : List Char} : '\n' ∉ body → IsGap ('-' :: '-' :: body) []
  | blockComment {body after : List Char} :
      afterNested? 1 body = some [] → IsGap ('/' :: '*' :: body) after

/-- A block comment in which another one is opened. -/
def Nests (gap : List Char) : Prop := ∃ body, gap = '/' :: '*' :: body ∧ ['/', '*'] <:+: body

/-- What stands in a gap behind the first closing, if there is one. -/
def leftover : List Char → List Char
  | '/' :: '*' :: body => (Text.afterFirst? ['*', '/'] body).getD []
  | _ => []

/-- The scan comes to the end of `before` outside of comments. The line break behind a comment is
part of it, so none may be open there. -/
structure TopLevel (replaceDigits : Bool) (before rest : List Char) : Prop where
  reaches : ∃ written, Reaches replaceDigits (before ++ rest) written rest
  no_comment : ∀ written body,
    Reaches replaceDigits before written ('-' :: '-' :: body) → '\n' ∈ body

/-! ### Block comments -/

variable {body rest : List Char} {depth : Nat}

theorem afterFirst?_cons_of_ne {c d : Char} {needle : List Char} (hc : c ≠ d) :
    Text.afterFirst? (c :: needle) (d :: rest) = Text.afterFirst? (c :: needle) rest := by
  have hnot : ¬ (c :: needle).isPrefixOf (d :: rest) = true := by
    rw [List.isPrefixOf_iff_prefix, List.cons_prefix_cons]
    exact fun h => hc h.1
  rw [Text.afterFirst?, if_neg hnot]

theorem afterFirst?_closing : Text.afterFirst? ['*', '/'] ('*' :: '/' :: rest) = some rest := by
  have hfront : ['*', '/'].isPrefixOf ('*' :: '/' :: rest) = true := rfl
  rw [Text.afterFirst?, if_pos hfront]
  rfl

theorem afterFirst?_closing_cons {c d : Char} (h : ¬ (c = '*' ∧ d = '/')) :
    Text.afterFirst? ['*', '/'] (c :: d :: rest) = Text.afterFirst? ['*', '/'] (d :: rest) := by
  have hnot : ¬ ['*', '/'].isPrefixOf (c :: d :: rest) = true := by
    rw [List.isPrefixOf_iff_prefix, List.cons_prefix_cons, List.cons_prefix_cons]
    exact fun hfront => h ⟨hfront.1.symm, hfront.2.1.symm⟩
  rw [Text.afterFirst?, if_neg hnot]

/-- In a block comment there is a closing. -/
theorem exists_closing (h : afterNested? (depth + 1) body = some rest) :
    ∃ after, Text.afterFirst? ['*', '/'] body = some after := by
  generalize hdepth : depth + 1 = n at h
  fun_induction afterNested? n body generalizing depth with
  | case1 => cases hdepth
  | case2 | case3 => cases h
  | case4 _ c d more hclosing =>
    obtain ⟨rfl, rfl⟩ := hclosing
    exact ⟨more, afterFirst?_closing⟩
  | case5 _ c d more _ hopening ih =>
    obtain ⟨rfl, rfl⟩ := hopening
    rw [afterFirst?_cons_of_ne (by decide)]
    cases more with
    | nil => exact ih rfl h
    | cons e more =>
      -- the star of the opening may be that of a closing
      by_cases hslash : e = '/'
      · subst hslash
        exact ⟨more, afterFirst?_closing⟩
      · rw [afterFirst?_closing_cons (by simp [hslash])]
        exact ih rfl h
  | case6 _ c d more hclosing _ ih =>
    rw [afterFirst?_closing_cons hclosing]
    exact ih rfl h

/-- If nothing is opened in a block comment, the first closing is its end. -/
theorem afterFirst?_of_afterNested? (h : afterNested? 1 body = some rest)
    (hflat : ¬ ['/', '*'] <:+: body) : Text.afterFirst? ['*', '/'] body = some rest := by
  generalize hdepth : 1 = n at h
  fun_induction afterNested? n body with
  | case1 => cases hdepth
  | case2 | case3 => cases h
  | case4 depth c d more hclosing =>
    obtain ⟨rfl, rfl⟩ := hclosing
    obtain rfl : 0 = depth := by omega
    rw [afterFirst?_closing, ← h, afterNested?]
  | case5 _ c d more _ hopening =>
    obtain ⟨rfl, rfl⟩ := hopening
    exact absurd (List.prefix_append ['/', '*'] more).isInfix hflat
  | case6 _ c d more hclosing _ ih =>
    rw [afterFirst?_closing_cons hclosing]
    exact ih (fun hinside => hflat (hinside.trans (List.suffix_cons c _).isInfix)) hdepth h

/-! ### What is written for a gap -/

/-- A gap that nothing is nested in is left completely. -/
theorem IsGap.leftover_eq_nil {gap after : List Char} (h : IsGap gap after) (hflat : ¬ Nests gap) :
    leftover gap = [] := by
  cases h with
  | blanks _ hblanks =>
    unfold leftover
    split
    · have := hblanks '/' List.mem_cons_self
      cases this
    · rfl
  | lineComment | lastComment => rfl
  | @blockComment body _ hclosed =>
    have hbody : ¬ ['/', '*'] <:+: body := fun hopened => hflat ⟨body, rfl, hopened⟩
    rw [leftover, afterFirst?_of_afterNested? hclosed hbody, Option.getD_some]

variable {replaceDigits : Bool} {text written : List Char}

/-- A space is not written twice. -/
theorem appendTo_blank_appendTo_blank (written : List Char) :
    Piece.blank.appendTo (Piece.blank.appendTo written) = Piece.blank.appendTo written := by
  have hspace : ((Piece.blank.appendTo written).isEmpty ||
      (Piece.blank.appendTo written).head? == some ' ') = true := by
    rw [Piece.appendTo]
    split
    · assumption
    · rfl
  rw [Piece.appendTo, if_pos hspace]

/-- For a run of blanks a single space is written. -/
theorem Reaches.of_blanks {blanks after : List Char} (hne : blanks ≠ [])
    (hblanks : ∀ c ∈ blanks, Text.isBlank c = true)
    (h : Reaches replaceDigits text written (blanks ++ after)) :
    Reaches replaceDigits text (Piece.blank.appendTo written) after := by
  induction blanks generalizing written with
  | nil => exact absurd rfl hne
  | cons c blanks ih =>
    have hnext : Reaches replaceDigits text (Piece.blank.appendTo written) (blanks ++ after) :=
      h.step (.blank (hblanks c List.mem_cons_self))
    cases blanks with
    | nil => exact hnext
    | cons d blanks =>
      have hrest := ih (List.cons_ne_nil d blanks)
        (fun e he => hblanks e (List.mem_cons_of_mem c he)) hnext
      rwa [appendTo_blank_appendTo_blank] at hrest

theorem dropWhile_eq_of_not_mem {c : Char} (hbody : c ∉ body) :
    (body ++ c :: rest).dropWhile (· != c) = c :: rest := by
  have hkept : ∀ d ∈ body, (d != c) = true := fun d hd => by
    rw [bne_iff_ne]
    rintro rfl
    exact hbody hd
  rw [List.dropWhile_append_of_pos hkept, List.dropWhile_cons_of_neg (by simp)]

/-- For a gap a single space is written. The scan goes on behind it, or behind the first closing
within it. -/
theorem Reaches.of_gap {gap after : List Char} (hgap : IsGap gap after)
    (h : Reaches replaceDigits text written (gap ++ after)) :
    Reaches replaceDigits text (Piece.blank.appendTo written) (leftover gap ++ after) := by
  cases hgap with
  | blanks hne hblanks =>
    have hgap : IsGap gap after := .blanks hne hblanks
    have hflat : ¬ Nests gap := by
      rintro ⟨body, rfl, -⟩
      cases hblanks '/' List.mem_cons_self
    rw [hgap.leftover_eq_nil hflat]
    exact h.of_blanks hne hblanks
  | @lineComment body _ hbody =>
    have hdashes :
        Reaches replaceDigits text written ('-' :: (('-' :: body) ++ '\n' :: after)) := by
      simpa using h
    have hline := hdashes.step (.lineComment rfl)
    rw [dropWhile_eq_of_not_mem (by simpa using hbody)] at hline
    have hbreak := hline.step (.blank rfl)
    rwa [appendTo_blank_appendTo_blank] at hbreak
  | @lastComment body hbody =>
    have hdashes : Reaches replaceDigits text written ('-' :: '-' :: body) := by
      rwa [List.append_nil] at h
    have hend : ('-' :: body).dropWhile (· != '\n') = [] := by
      rw [List.dropWhile_eq_nil_iff]
      intro c hc
      rw [bne_iff_ne]
      rintro rfl
      exact hbody (by simpa using hc)
    have hcomment := hdashes.step (.lineComment rfl)
    rwa [hend] at hcomment
  | @blockComment body _ hclosed =>
    obtain ⟨more, hmore⟩ := exists_closing hclosed
    have hinside : Text.afterFirst? ['*', '/'] (body ++ []) = some (more ++ []) := by
      rwa [List.append_nil, List.append_nil]
    have hfound : Text.afterFirst? ['*', '/'] (body ++ after) = some (more ++ after) :=
      afterFirst?_append_of_eq (List.cons_ne_nil _ _) hinside
    rw [leftover, hmore, Option.getD_some]
    exact h.step (.blockComment rfl hfound)

/-! ### Gaps in a statement -/

/-- In the place of a gap a single space leaves the same of the statement: the same text, or the
same failure equally far from the end. So nothing from inside a comment is left. If comments are
nested in the gap, then what stands behind the first closing is left too, and the gap is no
different from a space in front of it. -/
theorem strip_replace_gap (replaceDigits : Bool) (before gap after : List Char)
    (hgap : IsGap gap after) (htop : TopLevel replaceDigits before (gap ++ after)) :
    (¬ Nests gap →
      (strip replaceDigits (before ++ gap ++ after)).mapError
          (Unterminated.fromEnd (before ++ gap ++ after).length) =
        (strip replaceDigits (before ++ ' ' :: after)).mapError
          (Unterminated.fromEnd (before ++ ' ' :: after).length)) ∧
      (strip replaceDigits (before ++ gap ++ after)).mapError
          (Unterminated.fromEnd (before ++ gap ++ after).length) =
        (strip replaceDigits (before ++ ' ' :: (leftover gap ++ after))).mapError
          (Unterminated.fromEnd (before ++ ' ' :: (leftover gap ++ after)).length) := by
  have general : (strip replaceDigits (before ++ gap ++ after)).mapError
        (Unterminated.fromEnd (before ++ gap ++ after).length) =
      (strip replaceDigits (before ++ ' ' :: (leftover gap ++ after))).mapError
        (Unterminated.fromEnd (before ++ ' ' :: (leftover gap ++ after)).length) := by
    obtain ⟨written, hreach⟩ : ∃ written, Reaches replaceDigits (before ++ (gap ++ after)) written
      ([] ++ (gap ++ after)) := htop.reaches
    have hspace : Reaches replaceDigits (before ++ ' ' :: (leftover gap ++ after)) written
        ([] ++ ' ' :: (leftover gap ++ after)) := by
      refine Reaches.replace resembles_space ?_ hreach
      -- a comment that is open in front of the gap would swallow the space and what follows it
      intro _ written body hopen hbody
      exact absurd (htop.no_comment written body hopen.restrict) hbody
    have hgone : Reaches replaceDigits (before ++ gap ++ after) (Piece.blank.appendTo written)
        (leftover gap ++ after) :=
      Reaches.of_gap hgap (by rwa [List.append_assoc])
    exact mapError_fromEnd_strip hgone (hspace.step (.blank rfl))
  refine ⟨fun hflat => ?_, general⟩
  rwa [hgap.leftover_eq_nil hflat, List.nil_append] at general

/-- A comment between two dashes keeps them apart as a space does. -/
theorem strip_replace_gap_between_dashes :
    IsGap "/* ' */".toList "- 1".toList ∧ TopLevel false "a -".toList "/* ' */- 1".toList ∧
      ¬ Nests "/* ' */".toList ∧
      (strip false ("a -".toList ++ "/* ' */".toList ++ "- 1".toList)).mapError
          (Unterminated.fromEnd ("a -".toList ++ "/* ' */".toList ++ "- 1".toList).length) =
        (strip false ("a -".toList ++ ' ' :: "- 1".toList)).mapError
          (Unterminated.fromEnd ("a -".toList ++ ' ' :: "- 1".toList).length) := by
  have hgap : IsGap "/* ' */".toList "- 1".toList := .blockComment (by decide)
  have htop : TopLevel false "a -".toList "/* ' */- 1".toList := by
    refine ⟨⟨"- a".toList, reaches_iff_exists_place?.mpr ⟨3, by decide⟩⟩, fun _ body hopen => ?_⟩
    have := hopen.suffix
    simp [List.suffix_cons_iff] at this
  have hflat : ¬ Nests "/* ' */".toList := by
    rintro ⟨body, hbody, hinside⟩
    obtain rfl : " ' */".toList = body := by simpa using hbody
    revert hinside
    decide
  exact ⟨hgap, htop, hflat, (strip_replace_gap false _ _ _ hgap htop).1 hflat⟩

/-- The rest of the comment in `SELECT 1 /* a /* b */ c */` is left of the statement. A space in its
place would leave nothing. -/
theorem strip_ne_of_nested_comment :
    IsGap "/* a /* b */ c */".toList [] ∧
      TopLevel false "SELECT 1 ".toList "/* a /* b */ c */".toList ∧
      (strip false ("SELECT 1 ".toList ++ "/* a /* b */ c */".toList)).mapError
          (Unterminated.fromEnd ("SELECT 1 ".toList ++ "/* a /* b */ c */".toList).length) ≠
        (strip false ("SELECT 1 ".toList ++ " ".toList)).mapError
          (Unterminated.fromEnd ("SELECT 1 ".toList ++ " ".toList).length) := by
  have hgap : IsGap "/* a /* b */ c */".toList [] := .blockComment (by decide)
  have htop : TopLevel false "SELECT 1 ".toList "/* a /* b */ c */".toList := by
    refine ⟨⟨" ? TCELES".toList, reaches_iff_exists_place?.mpr ⟨9, by decide⟩⟩,
      fun _ body hopen => ?_⟩
    have := hopen.suffix
    simp [List.suffix_cons_iff] at this
  have hnested : strip false ("SELECT 1 ".toList ++ "/* a /* b */ c */".toList) =
      .ok "SELECT ? c */".toList := by
    have hreach : Reaches false ("SELECT 1 ".toList ++ "/* a /* b */ c */".toList)
        "/* c ? TCELES".toList [] :=
      reaches_iff_exists_place?.mpr ⟨15, by decide⟩
    rw [strip, hreach.scan_eq, scan_nil]
    rfl
  have hspace : strip false ("SELECT 1 ".toList ++ " ".toList) = .ok "SELECT ?".toList := by
    have hreach : Reaches false ("SELECT 1 ".toList ++ " ".toList) " ? TCELES".toList [] :=
      reaches_iff_exists_place?.mpr ⟨10, by decide⟩
    rw [strip, hreach.scan_eq, scan_nil]
    rfl
  refine ⟨hgap, htop, fun hsame => ?_⟩
  rw [hnested, hspace] at hsame
  have : "SELECT ? c */".toList = "SELECT ?".toList := Except.ok.inj hsame
  revert this
  decide

end Redaction

end QueryTelemetry
