import Mathlib.Data.List.TakeWhile
import QueryTelemetry.Text.Blank

/-!
# Parts between blanks

What the parts of a text are that is put together from other texts, and what becomes of it when its
parts are joined with one blank between any two of them (`Text.respaced`): blanks that stand
together become one, and those at the ends are lost.
-/

namespace QueryTelemetry

namespace Text

variable {separates : Char → Bool} {front back text : List Char} {c : Char}

theorem wordsBy_cons_of_pos (h : separates c = true) :
    wordsBy separates (c :: text) = wordsBy separates text := by
  rw [wordsBy, if_pos h]

theorem wordsBy_cons_of_neg (h : separates c = false) :
    wordsBy separates (c :: text) =
      (c :: text.takeWhile fun d => !separates d) ::
        wordsBy separates (text.dropWhile fun d => !separates d) := by
  rw [wordsBy, if_neg (by simp [h])]

/-- Separators in front make no difference. -/
theorem wordsBy_append_of_pos (h : ∀ c ∈ front, separates c = true) (text : List Char) :
    wordsBy separates (front ++ text) = wordsBy separates text := by
  induction front with
  | nil => rfl
  | cons c front ih =>
    rw [List.cons_append, wordsBy_cons_of_pos (h c List.mem_cons_self),
      ih fun d hd => h d (List.mem_cons_of_mem c hd)]

/-- The parts on the two sides of a separator. -/
theorem wordsBy_append_cons (h : separates c = true) (front back : List Char) :
    wordsBy separates (front ++ c :: back) =
      wordsBy separates front ++ wordsBy separates back := by
  fun_induction wordsBy separates front with
  | case1 => simpa [wordsBy] using wordsBy_cons_of_pos h
  | case2 d front hd ih => rw [List.cons_append, wordsBy_cons_of_pos hd, ih]
  | case3 d front hd ih =>
    have hd : separates d = false := by simpa using hd
    have htake : (front ++ c :: back).takeWhile (fun e => !separates e) =
        front.takeWhile fun e => !separates e := by
      rw [List.takeWhile_append]
      split
      · rename_i hall
        rw [List.takeWhile_cons_of_neg (by simp [h]), List.append_nil]
        exact ((List.takeWhile_prefix _).eq_of_length hall).symm
      · rfl
    have hdrop : (front ++ c :: back).dropWhile (fun e => !separates e) =
        front.dropWhile (fun e => !separates e) ++ c :: back := by
      rw [List.dropWhile_append]
      split
      · rename_i hnil
        rw [List.dropWhile_cons_of_neg (by simp [h]), List.isEmpty_iff.mp hnil, List.nil_append]
      · rfl
    rw [List.cons_append, wordsBy_cons_of_neg hd, htake, hdrop, ih, List.cons_append]

/-- What has no separators in it belongs to the part that begins behind it. -/
theorem wordsBy_append_of_neg (hfront : ∀ d ∈ front, separates d = false)
    (hc : separates c = false) (text : List Char) :
    ∃ part parts, wordsBy separates (c :: text) = part :: parts ∧
      wordsBy separates (front ++ c :: text) = (front ++ part) :: parts := by
  refine ⟨_, _, wordsBy_cons_of_neg hc, ?_⟩
  cases front with
  | nil => exact wordsBy_cons_of_neg hc
  | cons d front =>
    have hfront' : ∀ e ∈ front, (!separates e) = true := fun e he => by
      simp [hfront e (List.mem_cons_of_mem d he)]
    rw [List.cons_append, wordsBy_cons_of_neg (hfront d List.mem_cons_self),
      List.takeWhile_append_of_pos hfront', List.dropWhile_append_of_pos hfront',
      List.takeWhile_cons_of_pos (by simp [hc]), List.dropWhile_cons_of_pos (by simp [hc])]
    rfl

/-- A text without separators is one part. -/
theorem wordsBy_of_forall (hne : text ≠ []) (h : ∀ c ∈ text, separates c = false) :
    wordsBy separates text = [text] := by
  cases text with
  | nil => exact absurd rfl hne
  | cons c text =>
    have htext : ∀ d ∈ text, (!separates d) = true := fun d hd => by
      simp [h d (List.mem_cons_of_mem c hd)]
    rw [wordsBy_cons_of_neg (h c List.mem_cons_self), List.takeWhile_eq_self_iff.mpr htext,
      List.dropWhile_eq_nil_iff.mpr htext, wordsBy]

/-- The text with one blank between any two of its parts. -/
def respaced (text : List Char) : List Char := List.intercalate [' '] (wordsBy isBlank text)

/-- One blank in place of some. -/
def oneBlank (blanks : List Char) : List Char := if blanks.isEmpty then [] else [' ']

theorem isBlank_of_mem_oneBlank {blanks : List Char} (h : c ∈ oneBlank blanks) :
    isBlank c = true := by
  rw [oneBlank] at h
  split at h
  · simp at h
  · rw [List.mem_singleton.mp h]
    rfl

theorem respaced_append {blanks : List Char} (hne : front ≠ [])
    (hfront : ∀ d ∈ front, isBlank d = false) (hblanks : ∀ d ∈ blanks, isBlank d = true)
    (hc : isBlank c = false) (text : List Char) :
    respaced (front ++ (blanks ++ c :: text)) =
      front ++ (oneBlank blanks ++ respaced (c :: text)) := by
  obtain ⟨part, parts, hback, hwhole⟩ := wordsBy_append_of_neg hfront hc text
  cases blanks with
  | nil =>
    rw [List.nil_append, respaced, respaced, hwhole, hback]
    cases parts <;> simp [oneBlank]
  | cons blank blanks =>
    have hblank : isBlank blank = true := hblanks blank List.mem_cons_self
    rw [List.cons_append, respaced, wordsBy_append_cons hblank,
      wordsBy_append_of_pos fun d hd => hblanks d (List.mem_cons_of_mem blank hd),
      wordsBy_of_forall hne hfront, respaced, hback]
    simp [oneBlank]

end Text

section

variable {α β : Type} {separator : List β}

theorem intercalate_append {front back : List (List β)} (hfront : front ≠ []) (hback : back ≠ []) :
    separator.intercalate (front ++ back) =
      separator.intercalate front ++ separator ++ separator.intercalate back := by
  induction front with
  | nil => exact absurd rfl hfront
  | cons part front ih =>
    cases front with
    | nil =>
      obtain ⟨next, back, rfl⟩ := List.exists_cons_of_ne_nil hback
      rw [List.singleton_append, List.intercalate_cons_cons, List.intercalate_singleton]
    | cons next front =>
      have hnext := ih (List.cons_ne_nil next front)
      rw [List.cons_append] at hnext
      rw [List.cons_append, List.cons_append, List.intercalate_cons_cons, hnext,
        List.intercalate_cons_cons]
      simp

/-- Parts can be joined in groups first. -/
theorem intercalate_flatMap {groups : List α} {parts : α → List (List β)}
    (h : ∀ group ∈ groups, parts group ≠ []) :
    separator.intercalate (groups.flatMap parts) =
      separator.intercalate (groups.map fun group => separator.intercalate (parts group)) := by
  induction groups with
  | nil => rfl
  | cons group groups ih =>
    obtain ⟨hgroup, hgroups⟩ := List.forall_mem_cons.mp h
    cases groups with
    | nil => simp
    | cons next groups =>
      have hne : (next :: groups).flatMap parts ≠ [] := by
        simp [hgroups next List.mem_cons_self]
      rw [List.flatMap_cons, intercalate_append hgroup hne, ih hgroups, List.map_cons,
        List.map_cons, List.map_cons, List.intercalate_cons_cons]

end

end QueryTelemetry
