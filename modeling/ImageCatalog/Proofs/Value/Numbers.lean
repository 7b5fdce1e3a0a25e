import ImageCatalog.Proofs.Value.Ordering
import Mathlib.Data.Rat.Floor

/-! Integers and floating-point numbers beside each other. A finite word is read as a dyadic
rational, and the two are compared as rationals are; on the way nothing is clamped, rounded to an
infinity or wrapped. -/

set_option autoImplicit false

namespace ImageCatalog

namespace Binary64

/-- The magnitude that the fields of a finite word denote: a normal number has a hidden one before
its fraction, the numbers below them share the least exponent. -/
def absRat (x : Binary64) : ℚ :=
  if x.field = 0 then (x.fraction : ℚ) / 2 ^ 52 * (2 : ℚ) ^ (-1022 : Int)
  else (1 + (x.fraction : ℚ) / 2 ^ 52) * (2 : ℚ) ^ ((x.field : Int) - 1023)

def toRat (x : Binary64) : ℚ := if x.isNegative then -x.absRat else x.absRat

/-- The order of an integer and a word among the rationals and the two infinities. A NaN has
none. -/
def exactOrder? (n : Int64) (x : Binary64) : Option Ordering :=
  if x.isNaN then none
  else if x.isFinite then some (compare (n.toInt : ℚ) x.toRat)
  else if x.isNegative then some .gt
  else some .lt

private theorem units_rat_pos : (0 : ℚ) < unitsPerOne := Nat.cast_pos.2 unitsPerOne_pos

/-- One unit is `2 ^ (-1074)`. -/
private theorem magnitude_eq_absRat (x : Binary64) :
    (x.magnitude : ℚ) = x.absRat * unitsPerOne := by
  obtain ⟨k, place, power⟩ := exists_unitsPerOne_eq
  have two : (2 : ℚ) ≠ 0 := two_ne_zero
  -- Each exponent leaves room for the 52 bits of the fraction.
  have shifted (e : Int) (j : Nat) (room : e + k = 52 + j) :
      (2 : ℚ) ^ e * 2 ^ k = 2 ^ 52 * 2 ^ j := by
    rw [← zpow_natCast, ← zpow_natCast, ← zpow_natCast, ← zpow_add₀ two, ← zpow_add₀ two, room]
    rfl
  rw [absRat, magnitude, significand, scale, Nat.shiftLeft_eq, power, Nat.cast_mul, Nat.cast_pow,
    Nat.cast_pow, Nat.cast_ofNat]
  split
  · next subnormal =>
    rw [subnormal, mul_assoc, shifted (-1022) 0 (by omega)]
    ring
  · next normal =>
    rw [mul_assoc, shifted _ (x.field - 1) (by omega), hiddenBit]
    push_cast
    ring

theorem units_eq_toRat (x : Binary64) : (x.units : ℚ) = x.toRat * unitsPerOne := by
  rw [units, toRat]
  cases x.isNegative
  · simpa using x.magnitude_eq_absRat
  · simpa using x.magnitude_eq_absRat

private theorem toRat_eq_div (x : Binary64) : x.toRat = x.units / unitsPerOne := by
  rw [units_eq_toRat, mul_div_cancel_right₀ _ (ne_of_gt units_rat_pos)]

theorem units_eq_mul_iff {x : Binary64} {n : Int} :
    x.units = n * unitsPerOne ↔ x.toRat = n := by
  rw [← @Int.cast_inj ℚ, units_eq_toRat]
  push_cast
  exact mul_left_inj' (ne_of_gt units_rat_pos)

private theorem compare_units (n : Int) (x : Binary64) :
    compare (n * unitsPerOne) x.units = compare (n : ℚ) x.toRat := by
  have below : n * unitsPerOne < x.units ↔ (n : ℚ) < x.toRat := by
    rw [← @Int.cast_lt ℚ, units_eq_toRat]
    push_cast
    exact mul_lt_mul_iff_left₀ units_rat_pos
  rcases lt_trichotomy (n : ℚ) x.toRat with less | same | more
  · rw [compare_lt_iff_lt.2 less, compare_lt_iff_lt.2 (below.2 less)]
  · rw [compare_eq_iff_eq.2 same, compare_eq_iff_eq.2 (units_eq_mul_iff.2 same.symm).symm]
  · have above : x.units < n * unitsPerOne :=
      lt_of_le_of_ne (not_lt.1 (mt below.1 more.le.not_gt))
        fun same => more.ne (units_eq_mul_iff.1 same)
    rw [compare_gt_iff_gt.2 more, compare_gt_iff_gt.2 above]

theorem truncate_eq_toRat (x : Binary64) :
    x.truncate = if 0 ≤ x.toRat then ⌊x.toRat⌋ else ⌈x.toRat⌉ := by
  have sign : 0 ≤ x.toRat ↔ 0 ≤ x.units := by
    rw [← @Int.cast_nonneg_iff ℚ, units_eq_toRat, mul_nonneg_iff_of_pos_right units_rat_pos]
  rw [truncate]
  split
  · next above =>
    rw [toRat_eq_div, Rat.floor_intCast_div_natCast, Int.tdiv_eq_ediv_of_nonneg (sign.1 above)]
  · next below =>
    have negative : 0 ≤ -x.units := by
      rw [sign] at below
      omega
    rw [toRat_eq_div, ← neg_neg ((x.units : ℚ) / _), Int.ceil_neg, ← neg_div, ← Int.cast_neg,
      Rat.floor_intCast_div_natCast, ← Int.tdiv_eq_ediv_of_nonneg negative, Int.neg_tdiv, neg_neg]

private theorem compare_infinite {x : Binary64} (number : x.isNaN = false)
    (infinite : x.isFinite = false) (n : Int64) :
    compare (n.toInt * unitsPerOne) x.units = if x.isNegative then .gt else .lt := by
  have beyond : (n.toInt * unitsPerOne).natAbs < x.magnitude := by
    rw [Int.natAbs_mul, Int.natAbs_natCast]
    exact natAbs_mul_lt_magnitude number infinite n
  generalize n.toInt * unitsPerOne = m at beyond ⊢
  rw [units]
  split
  · exact Int.compare_eq_gt.2 (by omega)
  · exact Int.compare_eq_lt.2 (by omega)

theorem orderOfInt?_eq_exactOrder? (n : Int64) (x : Binary64) :
    orderOfInt? n x = exactOrder? n x := by
  rw [orderOfInt?_eq, exactOrder?]
  cases number : x.isNaN with
  | true => rfl
  | false =>
    cases finite : x.isFinite with
    | true => simp only [compare_units, Bool.false_eq_true, if_false, if_true]
    | false =>
      simp only [compare_infinite number finite, Bool.false_eq_true, if_false]
      split <;> rfl

private theorem integer?_beq_toRat {n : Int64} {x : Binary64} :
    (x.integer? == some n) = true ↔ x.isFinite = true ∧ x.toRat = n.toInt := by
  rw [beq_iff_eq, integer?_eq_some_iff]
  constructor
  · rintro ⟨number, denotes⟩
    exact ⟨isFinite_of_units_eq number denotes, units_eq_mul_iff.1 denotes⟩
  · rintro ⟨finite, denotes⟩
    exact ⟨isNaN_of_isFinite finite, units_eq_mul_iff.2 denotes⟩

theorem toInt_toInt64_eq_toRat {x : Binary64} (within : x.withinInt64 = true) :
    x.toInt64.toInt = if 0 ≤ x.toRat then ⌊x.toRat⌋ else ⌈x.toRat⌉ := by
  rw [toInt_toInt64 within, truncate_eq_toRat]

end Binary64

namespace Value

/-- What holds of an integer beside a word, and of the steps on the way: the cut of a number within
the range and its cast back, by which whole numbers are told, and then the cut of a fraction and the
step below it. -/
structure ComparedExactly (n : Int64) (x : Binary64) : Prop where
  order : (Value.int n).order? (.float x) = Binary64.exactOrder? n x
  order_reversed : (Value.float x).order? (.int n) = (Binary64.exactOrder? n x).map Ordering.swap
  equal : (Value.int n == .float x) = true ↔ x.isFinite = true ∧ x.toRat = n.toInt
  equal_reversed : (Value.float x == .int n) = true ↔ x.isFinite = true ∧ x.toRat = n.toInt
  cut_within : x.withinInt64 = true →
    x.toInt64.toInt = if 0 ≤ x.toRat then ⌊x.toRat⌋ else ⌈x.toRat⌉
  back_within : x.withinInt64 = true → (Binary64.ofInt64 x.toInt64).isFinite = true
  cut_fraction : x.HasCut → x.toInt64.toInt = if 0 ≤ x.toRat then ⌊x.toRat⌋ else ⌈x.toRat⌉
  step_below : x.HasCut → x.numLt .zero = true → (x.toInt64 - 1).toInt = x.toInt64.toInt - 1

/-- Comparing an integer with a floating-point number is exact, for every integer and every word. -/
theorem comparedExactly (n : Int64) (x : Binary64) : ComparedExactly n x where
  order := Binary64.orderOfInt?_eq_exactOrder? n x
  order_reversed := congrArg (Option.map Ordering.swap) (Binary64.orderOfInt?_eq_exactOrder? n x)
  equal := Binary64.integer?_beq_toRat
  equal_reversed := Binary64.integer?_beq_toRat
  cut_within := Binary64.toInt_toInt64_eq_toRat
  back_within _ := Binary64.isFinite_ofInt64 x.toInt64
  cut_fraction cut := Binary64.toInt_toInt64_eq_toRat cut.within
  step_below cut := Binary64.toInt_toInt64_sub_one cut.within cut.fraction

end Value

end ImageCatalog
