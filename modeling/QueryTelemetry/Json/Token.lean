import QueryTelemetry.Text.Hexadecimal

/-!
# The tokens of a JSON text

Reading a JSON text starts by cutting it into tokens. Numbers and texts are kept the way they are
written: whether a number is too large, or an escape stands for half a character, matters only to
those who want the value. `tokens?` answers for the whole text, and fails if some part of it is no
token.
-/

namespace QueryTelemetry

namespace Json

/-- A character of a text in quotes, or the sixteen bits of a `\u` escape. -/
inductive TextUnit
  | plain (c : Char)
  | escaped (bits : Nat)
  deriving DecidableEq

/-- A number as written: digits without a leading zero, digits after the point, and the exponent
with its direction. -/
structure NumberText where
  negative : Bool
  whole : List Char
  fraction : Option (List Char)
  /-- Whether the exponent has a minus, and its digits. -/
  exponent : Option (Bool × List Char)
  deriving DecidableEq

/-- A token of a JSON text. -/
inductive Token
  | listStart
  | listEnd
  | recordStart
  | recordEnd
  | comma
  | colon
  | null
  | bool (b : Bool)
  | number (n : NumberText)
  | text (units : List TextUnit)
  deriving DecidableEq

/-- The four characters that may stand between tokens. -/
def isGap (c : Char) : Bool := c == ' ' || c == '\t' || c == '\n' || c == '\r'

/-! ### Text in quotes -/

/-- The value of four hexadecimal digits. -/
def hexWord? (a b c d : Char) : Option Nat := do
  let a ← Text.hexDigit? a
  let b ← Text.hexDigit? b
  let c ← Text.hexDigit? c
  let d ← Text.hexDigit? d
  some (((a * 16 + b) * 16 + c) * 16 + d)

/-- The character that a letter after a backslash stands for. -/
def shortEscape? (c : Char) : Option Char :=
  if c = '"' ∨ c = '\\' ∨ c = '/' then some c
  else if c = 'b' then some '\x08'
  else if c = 'f' then some '\x0c'
  else if c = 'n' then some '\n'
  else if c = 'r' then some '\r'
  else if c = 't' then some '\t'
  else none

/-- Reads up to the closing quote, and gives what follows it. Control characters have to be
escaped. -/
def textUnits? : List Char → Option (List TextUnit × List Char)
  | [] => none
  | '"' :: rest => some ([], rest)
  | '\\' :: 'u' :: a :: b :: c :: d :: rest =>
    match hexWord? a b c d, textUnits? rest with
    | some bits, some (units, after) => some (.escaped bits :: units, after)
    | _, _ => none
  | '\\' :: c :: rest =>
    match shortEscape? c, textUnits? rest with
    | some plain, some (units, after) => some (.plain plain :: units, after)
    | _, _ => none
  | c :: rest =>
    if c.toNat < 0x20 then none
    else
      match textUnits? rest with
      | some (units, after) => some (.plain c :: units, after)
      | none => none

theorem length_lt_of_textUnits? {text : List Char} {units : List TextUnit} {after : List Char}
    (h : textUnits? text = some (units, after)) : after.length < text.length := by
  fun_induction textUnits? text generalizing units after with
  | case1 => simp at h
  | case2 rest =>
    simp only [Option.some.injEq, Prod.mk.injEq] at h
    simp [← h.2]
  | case3 | case5 | case8 =>
    rename_i ih
    simp only [Option.some.injEq, Prod.mk.injEq] at h
    have := ih (by assumption)
    simp only [← h.2, List.length_cons]
    omega
  | _ => simp at h

/-! ### Numbers -/

/-- The digits after a point, if there is one; a point without digits is an error. -/
def fractionText? : List Char → Option (Option (List Char) × List Char)
  | '.' :: rest =>
    let digits := rest.takeWhile Char.isDigit
    if digits.isEmpty then none else some (some digits, rest.dropWhile Char.isDigit)
  | rest => some (none, rest)

/-- The exponent, if there is one; its mark without digits is an error. -/
def exponentText? : List Char → Option (Option (Bool × List Char) × List Char)
  | c :: rest =>
    if c = 'e' ∨ c = 'E' then
      let (negative, rest) :=
        match rest with
        | '-' :: more => (true, more)
        | '+' :: more => (false, more)
        | more => (false, more)
      let digits := rest.takeWhile Char.isDigit
      if digits.isEmpty then none
      else some (some (negative, digits), rest.dropWhile Char.isDigit)
    else some (none, c :: rest)
  | [] => some (none, [])

/-- The digits before the point: a single zero, or digits that do not start with one. -/
def wholeText? : List Char → Option (List Char × List Char)
  | '0' :: rest => some (['0'], rest)
  | c :: rest =>
    if c.isDigit then some (c :: rest.takeWhile Char.isDigit, rest.dropWhile Char.isDigit)
    else none
  | [] => none

/-- Reads a number without its sign. -/
def numberText? (negative : Bool) (text : List Char) : Option (NumberText × List Char) :=
  match wholeText? text with
  | none => none
  | some (whole, rest) =>
    match fractionText? rest with
    | none => none
    | some (fraction, rest) =>
      match exponentText? rest with
      | none => none
      | some (exponent, rest) => some (⟨negative, whole, fraction, exponent⟩, rest)

private theorem length_dropDigits_le (text : List Char) :
    (text.dropWhile Char.isDigit).length ≤ text.length :=
  (List.dropWhile_sublist Char.isDigit).length_le

theorem length_le_of_fractionText? {text rest : List Char} {fraction : Option (List Char)}
    (h : fractionText? text = some (fraction, rest)) : rest.length ≤ text.length := by
  unfold fractionText? at h
  split at h
  · rename_i more
    have := length_dropDigits_le more
    grind
  · grind

theorem length_le_of_exponentText? {text rest : List Char} {exponent : Option (Bool × List Char)}
    (h : exponentText? text = some (exponent, rest)) : rest.length ≤ text.length := by
  unfold exponentText? at h
  have shorter := length_dropDigits_le
  split at h
  · split at h
    · split at h
      grind
    · grind
  · grind

theorem length_lt_of_wholeText? {text whole rest : List Char}
    (h : wholeText? text = some (whole, rest)) : rest.length < text.length := by
  unfold wholeText? at h
  have shorter := length_dropDigits_le
  split at h <;> grind

theorem length_lt_of_numberText? {negative : Bool} {text rest : List Char} {number : NumberText}
    (h : numberText? negative text = some (number, rest)) : rest.length < text.length := by
  unfold numberText? at h
  split at h
  · simp at h
  · rename_i whole
    have first := length_lt_of_wholeText? whole
    split at h
    · simp at h
    · rename_i fraction
      have second := length_le_of_fractionText? fraction
      split at h
      · simp at h
      · rename_i exponent
        have third := length_le_of_exponentText? exponent
        grind

/-! ### Tokens -/

/-- The tokens of one character. -/
def mark? (c : Char) : Option Token :=
  match c with
  | '[' => some .listStart
  | ']' => some .listEnd
  | '{' => some .recordStart
  | '}' => some .recordEnd
  | ',' => some .comma
  | ':' => some .colon
  | _ => none

/-- The tokens that are words: the word without its first letter, which is given apart, is cut off
the text. -/
def word? (first : Char) (rest : List Char) : Option (Token × List Char) :=
  if first = 'n' ∧ "ull".toList.isPrefixOf rest then some (.null, rest.drop 3)
  else if first = 't' ∧ "rue".toList.isPrefixOf rest then some (.bool true, rest.drop 3)
  else if first = 'f' ∧ "alse".toList.isPrefixOf rest then some (.bool false, rest.drop 4)
  else none

/-- The token at the start of a text, whose first character is given apart, and what follows. -/
def token? (first : Char) (rest : List Char) : Option (Token × List Char) :=
  match mark? first with
  | some mark => some (mark, rest)
  | none =>
    match first with
    | '"' => (textUnits? rest).map fun (units, after) => (.text units, after)
    | '-' => (numberText? true rest).map fun (number, after) => (.number number, after)
    | first =>
      if first.isDigit then
        (numberText? false (first :: rest)).map fun (number, after) => (.number number, after)
      else word? first rest

theorem length_le_of_word? {first : Char} {rest after : List Char} {token : Token}
    (h : word? first rest = some (token, after)) : after.length ≤ rest.length := by
  unfold word? at h
  repeat' split at h
  all_goals simp only [Option.some.injEq, Prod.mk.injEq, reduceCtorEq] at h
  all_goals simp [← h.2]

theorem length_le_of_token? {first : Char} {rest after : List Char} {token : Token}
    (h : token? first rest = some (token, after)) : after.length ≤ rest.length := by
  unfold token? at h
  split at h
  · simp only [Option.some.injEq, Prod.mk.injEq] at h
    simp [h.2]
  · split at h
    · simp only [Option.map_eq_some_iff, Prod.mk.injEq, Prod.exists] at h
      obtain ⟨_, _, found, -, rfl⟩ := h
      exact Nat.le_of_lt (length_lt_of_textUnits? found)
    · simp only [Option.map_eq_some_iff, Prod.mk.injEq, Prod.exists] at h
      obtain ⟨_, _, found, -, rfl⟩ := h
      exact Nat.le_of_lt (length_lt_of_numberText? found)
    · split at h
      · simp only [Option.map_eq_some_iff, Prod.mk.injEq, Prod.exists] at h
        obtain ⟨_, _, found, -, rfl⟩ := h
        exact Nat.le_of_lt_succ (length_lt_of_numberText? found)
      · exact length_le_of_word? h

/-- The tokens of a text, if it consists of tokens and gaps between them. -/
def tokens? : List Char → Option (List Token)
  | [] => some []
  | c :: rest =>
    if isGap c then tokens? rest
    else
      match _ : token? c rest with
      | none => none
      | some (token, after) => (tokens? after).map (token :: ·)
termination_by text => text.length
decreasing_by
  · simp
  · have := length_le_of_token? (by assumption)
    simp only [List.length_cons]
    omega

end Json

end QueryTelemetry
