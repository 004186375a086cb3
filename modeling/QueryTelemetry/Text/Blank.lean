/-!
# Blank characters

The characters with the Unicode property `White_Space`, and what the library does with them:
cutting blanks off the ends of a text and splitting a text at them. The property has more members
than the class of blanks in Lean's core library, which knows four of them.
-/

namespace QueryTelemetry

namespace Text

/-- Whether a character has the Unicode property `White_Space`. -/
def isBlank (c : Char) : Bool :=
  let n := c.toNat
  (9 ≤ n && n ≤ 13) || n == 0x20 || n == 0x85 || n == 0xA0 || n == 0x1680 ||
    (0x2000 ≤ n && n ≤ 0x200A) || n == 0x2028 || n == 0x2029 || n == 0x202F || n == 0x205F ||
    n == 0x3000

/-- The text without the blanks at its end. -/
def trimEnd (text : List Char) : List Char :=
  (text.reverse.dropWhile isBlank).reverse

/-- The text without the blanks at its two ends. -/
def trim (text : List Char) : List Char :=
  trimEnd (text.dropWhile isBlank)

/-- The maximal runs of characters that are no separators, in order. -/
def wordsBy (separates : Char → Bool) : List Char → List (List Char)
  | [] => []
  | c :: rest =>
    if separates c then wordsBy separates rest
    else
      (c :: rest.takeWhile fun d => !separates d) ::
        wordsBy separates (rest.dropWhile fun d => !separates d)
termination_by text => text.length
decreasing_by
  · simp
  · have := (List.dropWhile_sublist (l := rest) fun d => !separates d).length_le
    simp only [List.length_cons]
    omega

/-- The parts between the separators, empty ones included: one more than there are separators. -/
def splitAt {α : Type} [DecidableEq α] (separator : α) : List α → List (List α)
  | [] => [[]]
  | c :: rest =>
    if c = separator then [] :: splitAt separator rest
    else
      match splitAt separator rest with
      | [] => [[c]]
      | part :: parts => (c :: part) :: parts

end Text

end QueryTelemetry
