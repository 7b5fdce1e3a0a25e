import ImageCatalog.Number.Shortest
import ImageCatalog.Proofs.Number.Units
import Mathlib.Algebra.Order.Field.Rat
import Mathlib.Data.Rat.Cast.Order
import Mathlib.Tactic.Linarith
import Mathlib.Tactic.NormNum
import Mathlib.Tactic.Ring

set_option autoImplicit false

namespace ImageCatalog

namespace Decimal.Cell

def Contains (cell : Cell) (quarter q : ℚ) : Prop :=
  if cell.closed then cell.low * quarter ≤ q ∧ q ≤ cell.high * quarter
  else cell.low * quarter < q ∧ q < cell.high * quarter

theorem low_of (x : Binary64) : (of x).low =
    4 * x.significand - (if x.fraction = 0 ∧ 1 < x.field then 1 else 2) := by
  simp [of]

theorem middle_of (x : Binary64) : (of x).middle = 4 * x.significand := rfl

theorem high_of (x : Binary64) : (of x).high = 4 * x.significand + 2 := rfl

end Decimal.Cell

namespace Binary64

open Decimal (Cell)

/-- The word without its sign. Consecutive words are consecutive numbers. -/
def unsignedWord (x : Binary64) : Nat := x.scale * hiddenBit + x.significand

theorem significand_lt (x : Binary64) : x.significand < 2 ^ 53 := by
  have below : x.fraction < hiddenBit := Nat.mod_lt _ (by decide)
  rw [significand]
  split <;> rw [hiddenBit] at * <;> omega

theorem hiddenBit_le_significand {x : Binary64} (normal : x.field ≠ 0) :
    hiddenBit ≤ x.significand := by
  rw [significand, if_neg normal]
  omega

theorem scale_le_of_isFinite {x : Binary64} (finite : x.isFinite = true) : x.scale ≤ 2045 := by
  have field : x.field ≠ 2047 := by simpa [isFinite] using finite
  have below : x.field < 2048 := Nat.mod_lt _ (by decide)
  rw [scale]
  omega

theorem unsignedWord_lt_of_isFinite {x : Binary64} (finite : x.isFinite = true) :
    x.unsignedWord < infinityWord := by
  have places := scale_le_of_isFinite finite
  have digits := x.significand_lt
  rw [unsignedWord, hiddenBit, infinityWord]
  omega

theorem ofWord_unsignedWord (x : Binary64) : ofWord x.isNegative x.unsignedWord = x := by
  have size : x.bits.toNat < 2 ^ 64 := x.bits.toNat_lt
  have parts : x.unsignedWord = x.field * hiddenBit + x.fraction := by
    simp only [unsignedWord, scale, significand, hiddenBit]
    split <;> omega
  have word : (if x.isNegative then signBit + x.unsignedWord else x.unsignedWord) =
      x.bits.toNat := by
    rw [parts, isNegative, field, fraction, signBit, hiddenBit]
    by_cases negative : 0x8000000000000000 ≤ x.bits.toNat
    · rw [decide_eq_true negative, if_pos rfl]
      omega
    · rw [decide_eq_false negative, if_neg Bool.false_ne_true]
      omega
  rw [ofWord, word, UInt64.ofNat_toNat]

theorem significand_pos_of_magnitude {x : Binary64} (nonzero : x.magnitude ≠ 0) :
    0 < x.significand := by
  by_contra none
  apply nonzero
  rw [magnitude, Nat.eq_zero_of_not_pos none, Nat.zero_shiftLeft]

theorem unsignedWord_of_magnitude {x : Binary64} (zero : x.magnitude = 0) :
    x.unsignedWord = 0 := by
  have significand : x.significand = 0 := by
    rw [magnitude, Nat.shiftLeft_eq] at zero
    exact (Nat.mul_eq_zero.1 zero).resolve_right (Nat.pos_iff_ne_zero.1 (Nat.two_pow_pos _))
  have scale : x.scale = 0 := by
    by_contra some
    have field : x.field ≠ 0 := by
      intro none
      rw [scale, none] at some
      exact some rfl
    have := hiddenBit_le_significand field
    rw [significand, hiddenBit] at this
    omega
  rw [unsignedWord, scale, significand, Nat.zero_mul]

theorem divideToEven_eq {num den m : Nat} (low : (2 * m) * den ≤ 2 * num + den)
    (high : 2 * num ≤ (2 * m + 1) * den)
    (even : m % 2 = 1 → (2 * m) * den < 2 * num + den ∧ 2 * num < (2 * m + 1) * den)
    (positive : 0 < den) : divideToEven num den = m := by
  have parts := Nat.div_add_mod num den
  have small := Nat.mod_lt num positive
  have upper : num / den ≤ m := by
    refine Nat.lt_add_one_iff.1 ((Nat.div_lt_iff_lt_mul positive).2 ?_)
    rw [Nat.add_mul]
    rw [Nat.add_mul, Nat.mul_assoc] at high
    omega
  have lower : m ≤ num / den + 1 := by
    have bound : (m - 1) * den ≤ num := by
      rw [Nat.sub_mul]
      rw [Nat.mul_assoc] at low
      omega
    have := (Nat.le_div_iff_mul_le positive).2 bound
    omega
  have product : (2 * m) * den = 2 * (den * m) := by ring
  have product' : (2 * m + 1) * den = 2 * (den * m) + den := by ring
  rw [product] at low even
  rw [product'] at high even
  simp only [divideToEven]
  generalize num / den = quotient at parts upper lower ⊢
  generalize num % den = rest at parts small ⊢
  -- The quotient is `m` or one less, and the remainder says which way it is rounded.
  rcases Nat.lt_or_ge quotient m with below | same
  · obtain rfl : m = quotient + 1 := by omega
    rw [Nat.mul_add_one] at low even high
    split_ifs <;> omega
  · obtain rfl : m = quotient := by omega
    split_ifs <;> omega

def quarter (x : Binary64) : ℚ := 2 ^ x.scale / (4 * unitsPerOne)

private theorem bounds_of_contains {x : Binary64} {num den : Nat} (positive : 0 < den)
    (inside : (Cell.of x).Contains x.quarter (num / den)) :
    (Cell.of x).low * 2 ^ x.scale * den ≤ 4 * (num * unitsPerOne) ∧
      4 * (num * unitsPerOne) ≤ (4 * x.significand + 2) * 2 ^ x.scale * den ∧
      (x.significand % 2 = 1 → (Cell.of x).low * 2 ^ x.scale * den < 4 * (num * unitsPerOne) ∧
        4 * (num * unitsPerOne) < (4 * x.significand + 2) * 2 ^ x.scale * den) := by
  have units : (0 : ℚ) < 4 * unitsPerOne :=
    mul_pos (by norm_num) (Nat.cast_pos.2 unitsPerOne_pos)
  have divisor : (0 : ℚ) < den := by exact_mod_cast positive
  have closed : (Cell.of x).closed = (x.significand % 2 == 0) := rfl
  rw [Cell.Contains, quarter, Cell.high_of, closed] at inside
  simp only [mul_div_assoc', div_le_div_iff₀ units divisor, div_le_div_iff₀ divisor units,
    div_lt_div_iff₀ units divisor, div_lt_div_iff₀ divisor units] at inside
  have product : (num : ℚ) * (4 * unitsPerOne) = ((4 * (num * unitsPerOne) : Nat) : ℚ) := by
    push_cast
    ring
  rw [product] at inside
  norm_cast at inside
  split at inside
  · next even =>
    refine ⟨inside.1, inside.2, fun odd => ?_⟩
    simp [odd] at even
  · exact ⟨Nat.le_of_lt inside.1, Nat.le_of_lt inside.2, fun _ => inside⟩

private theorem rounded_eq {units den m scale : Nat} (positive : 0 < den)
    (below : units < 2 ^ (53 + scale) * den) (above : scale = 0 ∨ 2 ^ (52 + scale) * den ≤ units)
    (low : 2 * m * (den * 2 ^ scale) ≤ 2 * units + den * 2 ^ scale)
    (high : 2 * units ≤ (2 * m + 1) * (den * 2 ^ scale))
    (even : m % 2 = 1 → 2 * m * (den * 2 ^ scale) < 2 * units + den * 2 ^ scale ∧
      2 * units < (2 * m + 1) * (den * 2 ^ scale)) :
    ((units / den).log2 - 52) * hiddenBit +
        divideToEven units (den <<< ((units / den).log2 - 52)) = scale * hiddenBit + m := by
  have upper : units / den < 2 ^ (53 + scale) := (Nat.div_lt_iff_lt_mul positive).2 below
  have places : (units / den).log2 - 52 = scale := by
    rcases above with rfl | above
    · by_cases zero : units / den = 0
      · simp [zero]
      · have := (Nat.log2_lt zero).2 upper
        omega
    · have lower : 2 ^ (52 + scale) ≤ units / den := (Nat.le_div_iff_mul_le positive).2 above
      have nonzero : units / den ≠ 0 := by
        have := Nat.two_pow_pos (52 + scale)
        omega
      have leading : (units / den).log2 = 52 + scale :=
        (Nat.log2_eq_iff nonzero).2 ⟨lower, by rwa [Nat.add_right_comm]⟩
      omega
  rw [places, Nat.shiftLeft_eq,
    divideToEven_eq low high even (Nat.mul_pos positive (Nat.two_pow_pos scale))]

/-- Just below a power of two the cell reaches into the binade below, where the words are closer. -/
private theorem rounded_below_power {units den k : Nat} (positive : 0 < den)
    (below : units < 2 ^ (52 + (k + 1)) * den)
    (low : (4 * 2 ^ 52 - 1) * 2 ^ (k + 1) * den ≤ 4 * units) :
    ((units / den).log2 - 52) * hiddenBit +
        divideToEven units (den <<< ((units / den).log2 - 52)) =
      (k + 1) * hiddenBit + 2 ^ 52 := by
  have double : 2 ^ (52 + (k + 1)) * den = 2 ^ 53 * (den * 2 ^ k) := by ring
  have quarters : (4 * 2 ^ 52 - 1) * 2 ^ (k + 1) * den = (2 ^ 55 - 2) * (den * 2 ^ k) := by
    rw [Nat.pow_succ]
    ring_nf
  have top : 2 ^ (53 + k) * den = 2 ^ 53 * (den * 2 ^ k) := by ring
  have bottom : 2 ^ (52 + k) * den = 2 ^ 52 * (den * 2 ^ k) := by ring
  rw [double] at below
  rw [quarters] at low
  have fits : units < 2 ^ (53 + k) * den := by
    rw [top]
    exact below
  have reaches : k = 0 ∨ 2 ^ (52 + k) * den ≤ units := by
    rw [bottom]
    omega
  -- In the binade below, the significand comes to `2 ^ 53`, which carries into the exponent.
  have carried := rounded_eq (m := 2 ^ 53) positive fits reaches (by omega) (by omega) (by omega)
  rw [carried, hiddenBit]
  omega

private theorem rounded_in_binade {x : Binary64} {units den : Nat} (positive : 0 < den)
    (above : x.scale = 0 ∨ 2 ^ (52 + x.scale) * den ≤ units)
    (low : (Cell.of x).low * (den * 2 ^ x.scale) ≤ 4 * units)
    (high : 4 * units ≤ (4 * x.significand + 2) * (den * 2 ^ x.scale))
    (strict : x.significand % 2 = 1 → (Cell.of x).low * (den * 2 ^ x.scale) < 4 * units ∧
      4 * units < (4 * x.significand + 2) * (den * 2 ^ x.scale)) :
    ((units / den).log2 - 52) * hiddenBit +
      divideToEven units (den <<< ((units / den).log2 - 52)) = x.unsignedWord := by
  have small := x.significand_lt
  have wide : (4 * x.significand - 2) * (den * 2 ^ x.scale) ≤
      (Cell.of x).low * (den * 2 ^ x.scale) := by
    refine Nat.mul_le_mul_right _ ?_
    rw [Cell.low_of]
    split <;> omega
  have most := Nat.mul_le_mul_right (den * 2 ^ x.scale) (Nat.le_sub_one_of_lt small)
  have some : 0 < den * 2 ^ x.scale := Nat.mul_pos positive (Nat.two_pow_pos _)
  have top : 2 ^ (53 + x.scale) * den = 2 ^ 53 * (den * 2 ^ x.scale) := by ring
  rw [Nat.sub_mul] at wide
  simp only [Nat.add_mul, Nat.mul_assoc 4 x.significand] at wide high strict
  refine rounded_eq positive ?_ above ?_ ?_ ?_
  · rw [top]
    omega
  · rw [Nat.mul_assoc]
    omega
  · rw [Nat.add_mul, Nat.mul_assoc]
    omega
  · rw [Nat.add_mul, Nat.mul_assoc]
    omega

private theorem least_of_below {x : Binary64} {units den : Nat} (positive : x.scale ≠ 0)
    (below : units < 2 ^ (52 + x.scale) * den)
    (low : (Cell.of x).low * (den * 2 ^ x.scale) ≤ 4 * units) :
    x.significand = 2 ^ 52 ∧ (Cell.of x).low = 4 * 2 ^ 52 - 1 := by
  have field : 1 < x.field := by
    rw [scale] at positive
    omega
  have normal := hiddenBit_le_significand (x := x) (by omega)
  have bottom : 2 ^ (52 + x.scale) * den = 2 ^ 52 * (den * 2 ^ x.scale) := by ring
  have fewer : (Cell.of x).low * (den * 2 ^ x.scale) < 2 ^ 54 * (den * 2 ^ x.scale) := by
    omega
  have cut := Nat.lt_of_mul_lt_mul_right fewer
  rw [Cell.low_of] at cut
  rw [hiddenBit] at normal
  have least : x.significand = 2 ^ 52 := by
    split at cut <;> omega
  have fraction : x.fraction = 0 := by
    rw [significand, if_neg (by omega), hiddenBit] at least
    omega
  exact ⟨least, by rw [Cell.low_of, if_pos ⟨fraction, field⟩, least]⟩

theorem ofRatio_of_contains {x : Binary64} (finite : x.isFinite = true) {num den : Nat}
    (positive : 0 < den) (inside : (Cell.of x).Contains x.quarter (num / den)) (negative : Bool) :
    ofRatio negative num den = ofWord negative x.unsignedWord := by
  obtain ⟨low, high, strict⟩ := bounds_of_contains positive inside
  have scaled : ∀ n, n * 2 ^ x.scale * den = n * (den * 2 ^ x.scale) := fun n => by ring
  have word : ((num * unitsPerOne / den).log2 - 52) * hiddenBit +
      divideToEven (num * unitsPerOne) (den <<< ((num * unitsPerOne / den).log2 - 52)) =
      x.unsignedWord := by
    generalize num * unitsPerOne = units at low high strict ⊢
    by_cases above : x.scale = 0 ∨ 2 ^ (52 + x.scale) * den ≤ units
    · simp only [scaled] at low high strict
      exact rounded_in_binade positive above low high strict
    · rw [not_or, Nat.not_le] at above
      obtain ⟨least, cut⟩ := least_of_below above.1 above.2 (by rw [← scaled]; exact low)
      obtain ⟨k, scale⟩ := Nat.exists_eq_add_one_of_ne_zero above.1
      rw [cut, scale] at low
      rw [scale] at above
      rw [unsignedWord, least, scale]
      exact rounded_below_power positive above.2 low
  rw [ofRatio, word, Nat.min_eq_left (Nat.le_of_lt (unsignedWord_lt_of_isFinite finite))]

theorem isFinite_ofWord (negative : Bool) {word : Nat} (below : word < infinityWord) :
    (ofWord negative word).isFinite = true := by
  rw [infinityWord] at below
  have bits : (ofWord negative word).bits.toNat = if negative then signBit + word else word := by
    rw [ofWord, UInt64.toNat_ofNat_of_lt']
    rw [UInt64.size, signBit]
    split <;> omega
  have field : (ofWord negative word).field = word / hiddenBit := by
    rw [Binary64.field, bits, signBit, hiddenBit]
    split <;> omega
  have small : word / hiddenBit < 2047 := by
    rw [hiddenBit]
    omega
  rw [isFinite, field, bne_iff_ne]
  omega

theorem isFinite_ofInt {n : Int} (small : n.natAbs ≤ 2 ^ 64) : (ofInt n).isFinite = true := by
  have scaled : ∀ k, n.natAbs * 2 ^ k < 2 ^ (64 + k + 1) := by
    intro k
    have size := Nat.mul_le_mul_right (2 ^ k) small
    have positive := Nat.two_pow_pos k
    rw [Nat.pow_succ, Nat.pow_add]
    omega
  obtain ⟨k, place, power⟩ : ∃ k, k = 1074 ∧ unitsPerOne = 2 ^ k := ⟨1074, rfl, by decide +kernel⟩
  have bound := scaled k
  rw [← power] at bound
  rw [ofInt, ofRatio, Nat.div_one]
  generalize n.natAbs * unitsPerOne = units at bound ⊢
  have leading : units.log2 ≤ 64 + k := by
    by_cases zero : units = 0
    · rw [zero]
      exact Nat.zero_le _
    · exact Nat.le_of_lt_succ ((Nat.log2_lt zero).2 bound)
  have quotient : units / (1 <<< (units.log2 - 52)) < 2 ^ 53 := by
    rw [Nat.one_shiftLeft, Nat.div_lt_iff_lt_mul (Nat.two_pow_pos _), ← Nat.pow_add]
    exact Nat.lt_of_lt_of_le Nat.lt_log2_self (Nat.pow_le_pow_right (by decide) (by omega))
  have rounded := (divideToEven_bounds units (1 <<< (units.log2 - 52))).2
  have word : (units.log2 - 52) * hiddenBit + divideToEven units (1 <<< (units.log2 - 52)) <
      infinityWord := by
    clear bound
    generalize divideToEven units (1 <<< (units.log2 - 52)) = m at rounded ⊢
    generalize units / (1 <<< (units.log2 - 52)) = q at quotient rounded
    rw [hiddenBit, infinityWord]
    omega
  rw [Nat.min_eq_left (Nat.le_of_lt word)]
  exact isFinite_ofWord _ word

end Binary64

end ImageCatalog
