import ImageCatalog.Fault
import Mathlib.Algebra.Group.Int.Defs
import Mathlib.Algebra.Group.Nat.Defs
import Mathlib.Tactic.ByContra

set_option autoImplicit false

namespace ImageCatalog

namespace Binary64

theorem unitsPerOne_pos : 0 < unitsPerOne := by decide +kernel

theorem natAbs_units (x : Binary64) : x.units.natAbs = x.magnitude := by
  unfold units
  split <;> simp

theorem numEq_iff {x y : Binary64} :
    x.numEq y = true ↔ x.isNaN = false ∧ y.isNaN = false ∧ x.units = y.units := by
  simp [numEq, order?, and_assoc]

theorem divideToEven_bounds (num den : Nat) :
    num / den ≤ divideToEven num den ∧ divideToEven num den ≤ num / den + 1 := by
  unfold divideToEven
  dsimp only
  split
  · omega
  · split <;> omega

private theorem log2_mul_shiftLeft {n : Nat} (positive : n ≠ 0) (k : Nat) :
    (n * (1 <<< k)).log2 = n.log2 + k := by
  have power : 0 < 2 ^ k := Nat.two_pow_pos k
  rw [Nat.shiftLeft_eq, Nat.one_mul,
    Nat.log2_eq_iff (Nat.mul_ne_zero positive (Nat.ne_of_gt power)), Nat.pow_add,
    Nat.add_right_comm, Nat.pow_add]
  exact ⟨Nat.mul_le_mul_right _ (Nat.log2_self_le positive),
    Nat.mul_lt_mul_of_pos_right Nat.lt_log2_self power⟩

private theorem shiftLeft_mono {m n j k : Nat} (number : m ≤ n) (places : j ≤ k) :
    m <<< j ≤ n <<< k := by
  rw [Nat.shiftLeft_eq, Nat.shiftLeft_eq]
  exact Nat.mul_le_mul number (Nat.pow_le_pow_right (by decide) places)

/-- From `2 ^ 63` on the significand is rounded to a multiple of `2 ^ 11`, and may carry. -/
private theorem exists_bits_ofUnsigned {n : UInt64} (large : 2 ^ 63 ≤ n.toNat) :
    ∃ q, 2 ^ 52 ≤ q ∧ q ≤ 2 ^ 53 ∧ (ofUnsigned n).bits.toNat = 1085 * hiddenBit + q := by
  have small : n.toNat < 2 ^ 64 := n.toNat_lt
  have log : (n.toNat * unitsPerOne).log2 - 52 = 1085 := by
    rw [unitsPerOne, log2_mul_shiftLeft (by omega), (Nat.log2_eq_iff (by omega)).2 ⟨large, small⟩]
  have weight : 1 <<< 1085 = 2048 * unitsPerOne := by decide +kernel
  have quotient : n.toNat * unitsPerOne / (1 <<< 1085) = n.toNat / 2048 := by
    rw [weight, Nat.mul_div_mul_right _ _ unitsPerOne_pos]
  have bounds := divideToEven_bounds (n.toNat * unitsPerOne) (1 <<< 1085)
  rw [quotient] at bounds
  refine ⟨divideToEven (n.toNat * unitsPerOne) (1 <<< 1085), by omega, by omega, ?_⟩
  have finite : 1085 * hiddenBit + divideToEven (n.toNat * unitsPerOne) (1 <<< 1085) <
      infinityWord := by
    rw [hiddenBit, infinityWord]
    omega
  rw [ofUnsigned, ofRatio, Nat.div_one, log]
  dsimp only [ofWord]
  rw [Nat.min_eq_left (Nat.le_of_lt finite), if_neg Bool.false_ne_true, UInt64.toNat_ofNat_of_lt']
  rw [infinityWord] at finite
  rw [UInt64.size]
  omega

theorem le_units_ofUnsigned {n : UInt64} (large : 2 ^ 63 ≤ n.toNat) :
    2 ^ 63 * (unitsPerOne : Int) ≤ (ofUnsigned n).units := by
  obtain ⟨q, low, high, bits⟩ := exists_bits_ofUnsigned large
  have field : 1086 ≤ (ofUnsigned n).field := by
    rw [Binary64.field, bits, hiddenBit]
    omega
  have positive : (ofUnsigned n).isNegative = false := by
    rw [isNegative, bits, signBit, hiddenBit, decide_eq_false_iff_not]
    omega
  have hidden : hiddenBit ≤ (ofUnsigned n).significand := by
    rw [significand, if_neg (by omega)]
    omega
  have scale : 1085 ≤ (ofUnsigned n).scale := by
    rw [Binary64.scale]
    omega
  have size := shiftLeft_mono hidden scale
  have power : hiddenBit <<< 1085 = 2 ^ 63 * unitsPerOne := by decide +kernel
  rw [power] at size
  rw [units, positive, if_neg Bool.false_ne_true, magnitude]
  exact_mod_cast size

end Binary64

end ImageCatalog
