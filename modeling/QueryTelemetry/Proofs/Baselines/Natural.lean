import Mathlib.Algebra.Order.Ring.Int
import QueryTelemetry.Decimal.Binary
import QueryTelemetry.Proofs.Baselines.Totals

/-!
# Natural counters

Counters of calls, rows and blocks are natural numbers as long as nothing goes wrong. They are
compared as numbers, their growth is the difference (`Counter.growth_of_isNatural`), and zero is the
only value that is zero. Adding them up stops at the end of the range and can never come back from
there, so what rows have for a metric adds up to the exact sum, cut off at the end of the range
(`Baselines.sum?_of_isNatural`, `Baselines.amount_totals_of_isNatural`).
-/

namespace QueryTelemetry

/-! ### The end of the range -/

namespace Saturating

/-- Of what is not negative only the upper end cuts something off. -/
theorem toInt_ofInt_of_nonneg {n : Int} (h : 0 ≤ n) : (ofInt n).toInt = min n (2 ^ 63 - 1) := by
  have hmin : Int64.minValue.toInt = -2 ^ 63 := by decide
  have hmax : Int64.maxValue.toInt = 2 ^ 63 - 1 := by decide
  rw [ofInt, hmin, if_neg (by omega)]
  split
  · omega
  · rw [Int64.toInt_ofInt_of_le (by omega) (by omega)]
    omega

/-- A number of 64 bits is the nearest one to itself. -/
@[simp] theorem ofInt_toInt (n : Int64) : ofInt n.toInt = n := by
  rw [← Int64.toInt_inj, toInt_ofInt n.minValue_le_toInt n.toInt_le]

/-- Numbers from the upper end on are all cut off there. -/
theorem ofInt_eq_maxValue {n : Int} (h : 2 ^ 63 - 1 ≤ n) : ofInt n = Int64.maxValue := by
  have hmax : Int64.maxValue.toInt = 2 ^ 63 - 1 := by decide
  rw [← Int64.toInt_inj, toInt_ofInt_of_nonneg (by omega), hmax]
  omega

/-- What was cut off makes no difference when more is added. -/
theorem ofInt_toInt_ofInt_add {sum n : Int} (hsum : 0 ≤ sum) (hn : 0 ≤ n) :
    ofInt ((ofInt sum).toInt + n) = ofInt (sum + n) := by
  rw [toInt_ofInt_of_nonneg hsum]
  rcases Int.le_total sum (2 ^ 63 - 1) with hlow | hhigh
  · rw [Int.min_eq_left hlow]
  · rw [Int.min_eq_right hhigh, ofInt_eq_maxValue (by omega), ofInt_eq_maxValue (by omega)]

end Saturating

/-! ### One counter -/

namespace Counter

/-- A whole number that is not negative. -/
def IsNatural : Counter → Prop
  | whole n => 0 ≤ n.toInt
  | real _ => False

variable {a b value : Counter}

theorem isNatural_whole {n : Int64} (h : 0 ≤ n.toInt) : (whole n).IsNatural := h

theorem IsNatural.exists_eq_whole (h : value.IsNatural) :
    ∃ n : Int64, value = .whole n ∧ 0 ≤ n.toInt := by
  cases value with
  | real x => exact h.elim
  | whole n => exact ⟨n, rfl, h⟩

@[simp] theorem isLess_whole (a b : Int64) :
    (whole a).isLess (whole b) = decide (a.toInt < b.toInt) := by
  rw [Bool.eq_iff_iff]
  simp [isLess, compare?, Std.compare_eq_lt]

/-- As a number; a double counts as zero. -/
def toInt : Counter → Int
  | whole n => n.toInt
  | real _ => 0

theorem toInt_of_isZero (h : a.isZero = true) : a.toInt = 0 := by
  cases a with
  | whole n =>
    obtain rfl : n = 0 := beq_iff_eq.mp h
    rfl
  | real x => rfl

/-- Natural numbers are compared as numbers. -/
theorem isLess_of_isNatural (ha : a.IsNatural) (hb : b.IsNatural) :
    a.isLess b = decide (a.toInt < b.toInt) := by
  obtain ⟨a, rfl, -⟩ := ha.exists_eq_whole
  obtain ⟨b, rfl, -⟩ := hb.exists_eq_whole
  exact isLess_whole a b

/-- The growth of a natural number that has not gone down is the difference. -/
theorem growth_of_isNatural (ha : a.IsNatural) (hb : b.IsNatural) (h : a.isLess b = false) :
    (a.growth b).IsNatural ∧ (a.growth b).toInt = a.toInt - b.toInt := by
  obtain ⟨a, rfl, -⟩ := ha.exists_eq_whole
  obtain ⟨b, rfl, hb⟩ := hb.exists_eq_whole
  have hle : b.toInt ≤ a.toInt := by simpa using h
  have hmin : Int64.minValue.toInt ≤ 0 := by decide
  have hmax : a.toInt ≤ Int64.maxValue.toInt := a.toInt_le
  have hsub : (Saturating.sub a b).toInt = a.toInt - b.toInt :=
    Saturating.toInt_ofInt (by omega) (by omega)
  refine ⟨?_, hsub⟩
  change 0 ≤ (Saturating.sub a b).toInt
  omega

end Counter

/-! ### The counters of a row -/

namespace Metrics

/-- All values are natural numbers. -/
def IsNatural (m : Metrics) : Prop :=
  ∀ metric value, m.get? metric = some value → value.IsNatural

theorem isNatural_empty : empty.IsNatural := by
  intro metric value hvalue
  rw [get?_empty] at hvalue
  cases hvalue

theorem IsNatural.set {m : Metrics} {value : Counter} (h : m.IsNatural) (hvalue : value.IsNatural)
    (metric : Metric) : (m.set metric value).IsNatural := by
  intro other found hfound
  rw [get?_set] at hfound
  split at hfound
  · exact Option.some.inj hfound ▸ hvalue
  · exact h other found hfound

/-- The value for a metric as a number; zero if there is none. -/
def amount (m : Metrics) (metric : Metric) : Int :=
  ((m.get? metric).map Counter.toInt).getD 0

section

variable {m : Metrics} {metric : Metric}

theorem amount_of_get? {value : Counter} (h : m.get? metric = some value) :
    m.amount metric = value.toInt := by
  rw [amount, h]
  rfl

theorem amount_of_get?_eq_none (h : m.get? metric = none) : m.amount metric = 0 := by
  rw [amount, h]
  rfl

end

end Metrics

namespace Baselines

/-! ### Sums -/

section Sums

variable {values : List Counter}

theorem sum_toInt_nonneg (h : ∀ value ∈ values, value.IsNatural) :
    0 ≤ (values.map Counter.toInt).sum := by
  induction values with
  | nil => exact Int.le_refl 0
  | cons value values ih =>
    obtain ⟨n, rfl, hn⟩ := (h value List.mem_cons_self).exists_eq_whole
    rw [List.map_cons, List.sum_cons]
    exact Int.add_nonneg hn (ih fun other hother => h other (List.mem_cons_of_mem _ hother))

/-- Natural numbers add up to their exact sum, cut off at the end of the range. -/
theorem sum?_of_isNatural (h : ∀ value ∈ values, value.IsNatural) :
    sum? values =
      if values = [] then none
      else some (.whole (Saturating.ofInt (values.map Counter.toInt).sum)) := by
  -- the sum so far has been cut off before the next value is added
  induction values using List.reverseRecOn with
  | nil => rfl
  | append_singleton values value ih =>
    have hbefore : ∀ other ∈ values, other.IsNatural :=
      fun other hother => h other (List.mem_append_left _ hother)
    obtain ⟨n, rfl, hn⟩ := (h value (List.mem_append_right _ List.mem_cons_self)).exists_eq_whole
    have hsum : ((values ++ [Counter.whole n]).map Counter.toInt).sum =
        (values.map Counter.toInt).sum + n.toInt := by
      rw [List.map_append, List.sum_append, List.map_singleton, List.sum_singleton]
      rfl
    have hne : values ++ [Counter.whole n] ≠ [] := List.concat_ne_nil _ _
    rw [sum?_concat, ih hbefore, if_neg hne, hsum]
    by_cases hnil : values = []
    · rw [if_pos hnil, hnil, List.map_nil, List.sum_nil, Int.zero_add, Saturating.ofInt_toInt]
    · rw [if_neg hnil, ← Saturating.ofInt_toInt_ofInt_add (sum_toInt_nonneg hbefore) hn]
      rfl

end Sums

variable {ρ : Type} [HasMetrics ρ] {rows : List ρ} {watched : List Metric} {metric : Metric}

/-- The values that rows have for a metric. -/
def valuesOf (metric : Metric) (rows : List ρ) : List Counter :=
  rows.filterMap fun row => (HasMetrics.metrics row).get? metric

/-- Where rows have values for a metric, these are natural numbers. -/
def CountsNaturally (metric : Metric) (rows : List ρ) : Prop :=
  ∀ row ∈ rows, ∀ value, (HasMetrics.metrics row).get? metric = some value → value.IsNatural

theorem CountsNaturally.of_mem_valuesOf (h : CountsNaturally metric rows) :
    ∀ value ∈ valuesOf metric rows, value.IsNatural := by
  intro value hvalue
  obtain ⟨row, hrow, hget⟩ := List.mem_filterMap.mp hvalue
  exact h row hrow value hget

/-- A total of natural numbers is their exact sum, cut off at the end of the range. -/
theorem exists_of_total?_eq_some (h : CountsNaturally metric rows) {total : Counter}
    (htotal : total? metric rows = some total) :
    ∃ n : Int64, total = .whole n ∧
      n.toInt = min ((valuesOf metric rows).map Counter.toInt).sum (2 ^ 63 - 1) := by
  rw [total?, ← valuesOf, sum?_of_isNatural h.of_mem_valuesOf] at htotal
  split at htotal
  · cases htotal
  · obtain rfl := Option.some.inj htotal
    exact ⟨_, rfl, Saturating.toInt_ofInt_of_nonneg (sum_toInt_nonneg h.of_mem_valuesOf)⟩

/-- Sums of natural numbers are natural numbers. -/
theorem isNatural_of_total? (h : CountsNaturally metric rows) {total : Counter}
    (htotal : total? metric rows = some total) : total.IsNatural := by
  obtain ⟨n, rfl, hn⟩ := exists_of_total?_eq_some h htotal
  have hsum := sum_toInt_nonneg h.of_mem_valuesOf
  change 0 ≤ n.toInt
  omega

/-- Of what is not watched there are no totals. -/
theorem amount_totals_of_unwatched (h : metric ∉ watched) :
    (totals watched rows).amount metric = 0 := by
  refine Metrics.amount_of_get?_eq_none ?_
  rw [get?_totals, if_neg h]

end Baselines

end QueryTelemetry
