import Mathlib.Data.Prod.Lex
import QueryTelemetry.Event
import QueryTelemetry.Proofs.Runs
import QueryTelemetry.Proofs.Splitting

/-!
# Versions and their numbers

Versions are compared by their major version, then by the minor version, then by the patch level
(`isBefore_iff`). A greater number stands for a later version, also where the numbers before version
10 meet those since (`key_ofNumber_lt`), so a version tells the number that it was read from. Its
text tells the version (`renderOptional_injective`).
-/

namespace QueryTelemetry

namespace ServerVersion

/-! ### The order of versions -/

/-- A version in the order of its parts. -/
def key (v : ServerVersion) : Nat ×ₗ Nat ×ₗ Nat := toLex (v.major, toLex (v.minor, v.patch))

theorem key_lt_key_iff {v w : ServerVersion} :
    v.key < w.key ↔ v.major < w.major ∨ v.major = w.major ∧
      (v.minor < w.minor ∨ v.minor = w.minor ∧ v.patch < w.patch) := by
  rw [key, key, Prod.Lex.toLex_lt_toLex, Prod.Lex.toLex_lt_toLex]

theorem isBefore_iff {v w : ServerVersion} : v.isBefore w = true ↔ v.key < w.key := by
  rw [key_lt_key_iff]
  simp [isBefore]

/-! ### Versions out of numbers -/

theorem ofNumber_natCast (n : Nat) :
    ofNumber n = if 100000 ≤ n then ⟨n / 10000, n % 10000, 0⟩
      else ⟨n / 10000, n / 100 % 100, n % 100⟩ := rfl

/-- A negative number counts as zero. -/
theorem ofNumber_of_neg {n : Int} (h : n < 0) : ofNumber n = ofNumber 0 := by
  have hzero : n.toNat = (0 : Int).toNat := Int.toNat_of_nonpos h.le
  rw [ofNumber, ofNumber, hzero]

theorem key_ofNumber_natCast_lt {m n : Nat} (h : m < n) :
    (ofNumber m).key < (ofNumber n).key := by
  rw [key_lt_key_iff, ofNumber_natCast, ofNumber_natCast]
  split_ifs with hm hn hn
  · -- in both numbers the minor version stands behind the major one
    simp only
    omega
  · exact absurd (hm.trans h.le) hn
  · -- from 100000 on every number has a greater major version than those before
    exact .inl (show m / 10000 < n / 10000 by omega)
  · -- both numbers have three parts
    simp only
    omega

/-- A greater number stands for a later version. -/
theorem key_ofNumber_lt {a b : Int} (ha : 0 ≤ a) (h : a < b) :
    (ofNumber a).key < (ofNumber b).key := by
  obtain ⟨m, rfl⟩ := Int.eq_ofNat_of_zero_le ha
  obtain ⟨n, rfl⟩ := Int.eq_ofNat_of_zero_le (ha.trans h.le)
  exact key_ofNumber_natCast_lt (Int.ofNat_lt.mp h)

/-- No version is that of two numbers. -/
theorem ofNumber_inj {a b : Int} (ha : 0 ≤ a) (hb : 0 ≤ b) (h : ofNumber a = ofNumber b) :
    a = b := by
  rcases lt_trichotomy a b with hlt | heq | hgt
  · exact absurd (congrArg key h) (key_ofNumber_lt ha hlt).ne
  · exact heq
  · exact absurd (congrArg key h).symm (key_ofNumber_lt hb hgt).ne

/-- The versions before that of a number have smaller numbers. -/
theorem key_ofNumber_lt_iff {a b : Int} (hb : 0 < b) :
    (ofNumber a).key < (ofNumber b).key ↔ a < b := by
  rcases lt_or_ge a 0 with ha | ha
  · rw [ofNumber_of_neg ha]
    exact iff_of_true (key_ofNumber_lt le_rfl hb) (ha.trans hb)
  · refine ⟨fun h => lt_of_not_ge fun hge => ?_, key_ofNumber_lt ha⟩
    rcases hge.eq_or_lt with rfl | hlt
    · exact lt_irrefl _ h
    · exact lt_asymm h (key_ofNumber_lt hb.le hlt)

/-! ### Texts -/

theorem toDigits_injective : Function.Injective (Nat.toDigits 10) :=
  Function.LeftInverse.injective (g := (Nat.ofDigitChars 10 · 0))
    fun _ => Nat.ofDigitChars_ten_toDigits

theorem point_not_mem_toDigits (n : Nat) : '.' ∉ Nat.toDigits 10 n := fun h =>
  absurd ((isDigits_toDigits n).2 '.' h) (by decide)

theorem toList_render (v : ServerVersion) :
    v.render.toList = 'v' :: (Nat.toDigits 10 v.major ++ '.' ::
      (Nat.toDigits 10 v.minor ++ '.' :: Nat.toDigits 10 v.patch)) := by
  have hv : "v".toList = ['v'] := rfl
  have hpoint : ".".toList = ['.'] := rfl
  simp only [render, String.toList_append, Nat.toString_eq_repr, Nat.toList_repr, hv, hpoint,
    List.append_assoc, List.cons_append, List.nil_append]

/-- Between its points the text of a version has the digits of its parts. -/
theorem splitAt_render (v : ServerVersion) :
    Text.splitAt '.' v.render.toList.tail =
      [Nat.toDigits 10 v.major, Nat.toDigits 10 v.minor, Nat.toDigits 10 v.patch] := by
  rw [toList_render, List.tail_cons, Text.splitAt_append_cons (point_not_mem_toDigits _),
    Text.splitAt_append_cons (point_not_mem_toDigits _),
    Text.splitAt_of_not_mem (point_not_mem_toDigits _)]

theorem render_injective : Function.Injective render := by
  rintro ⟨major, minor, patch⟩ ⟨major', minor', patch'⟩ h
  have hparts := splitAt_render ⟨major, minor, patch⟩
  rw [h, splitAt_render] at hparts
  obtain ⟨hmajor, hminor, hpatch, -⟩ := by
    simpa only [List.cons.injEq] using hparts
  rw [toDigits_injective hmajor, toDigits_injective hminor, toDigits_injective hpatch]

/-- The text tells the version, and whether it is known at all. -/
theorem renderOptional_injective : Function.Injective renderOptional := by
  have hne (v : ServerVersion) : v.render ≠ "" := fun h => by
    have htext := toList_render v
    rw [h] at htext
    cases htext
  rintro (_ | v) (_ | w) h
  · rfl
  · exact absurd h.symm (hne w)
  · exact absurd h (hne v)
  · rw [render_injective h]

end ServerVersion

end QueryTelemetry
