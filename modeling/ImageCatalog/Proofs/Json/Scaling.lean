import ImageCatalog.Json.Reader
import ImageCatalog.Proofs.Number.Integers
import ImageCatalog.Proofs.Number.Rounding
import ImageCatalog.Proofs.Number.Shortest

/-! Digits that fit in 64 bits are read whole, and a decimal no greater than the greatest finite
word is scaled without overflow, though each power of ten and each result is rounded. Few digits and
a small power of ten are both exact, so that only the result is rounded. -/

set_option autoImplicit false

namespace ImageCatalog

namespace Binary64

theorem magnitude_powerOfTen_mono {k j : Nat} (le : k ≤ j) :
    (powerOfTen k).magnitude ≤ (powerOfTen j).magnitude :=
  magnitude_ofRatio_mono Nat.one_pos Nat.one_pos
    (Nat.mul_le_mul_right _ (Nat.pow_le_pow_right (by decide) le))

theorem unitsPerOne_le_magnitude_powerOfTen (k : Nat) :
    unitsPerOne ≤ (powerOfTen k).magnitude := by
  have one : (powerOfTen 0).magnitude = unitsPerOne := by decide +kernel
  exact one ▸ magnitude_powerOfTen_mono (Nat.zero_le k)

theorem magnitude_ofRatio_ten_pow :
    (ofRatio false (10 ^ 17) 1).magnitude = 10 ^ 17 * unitsPerOne := by
  decide +kernel

theorem magnitude_ofRatio_le {n : Nat} (few : n ≤ 10 ^ 17) :
    (ofRatio false n 1).magnitude ≤ 10 ^ 17 * unitsPerOne := by
  rw [← magnitude_ofRatio_ten_pow]
  exact magnitude_ofRatio_mono Nat.one_pos Nat.one_pos (Nat.mul_le_mul_right _ few)

theorem magnitude_quotient_le {x : Binary64} (small : x.magnitude ≤ 10 ^ 17 * unitsPerOne)
    (k : Nat) :
    (quotient false x (powerOfTen k)).magnitude ≤ 10 ^ 17 * unitsPerOne := by
  have power := unitsPerOne_le_magnitude_powerOfTen k
  rw [quotient, ← magnitude_ofRatio_ten_pow]
  refine magnitude_ofRatio_mono (Nat.lt_of_lt_of_le unitsPerOne_pos power) Nat.one_pos ?_
  rw [Nat.mul_one]
  exact Nat.le_trans small (Nat.mul_le_mul_left _ power)

theorem isFinite_quotient (negative : Bool) {x : Binary64}
    (small : x.magnitude ≤ 10 ^ 17 * unitsPerOne) (k : Nat) :
    (quotient negative x (powerOfTen k)).isFinite = true := by
  have below : 10 ^ 17 < overflow := by decide +kernel
  refine isFinite_ofRatio negative ?_
  calc x.magnitude ≤ 10 ^ 17 * unitsPerOne := small
    _ < overflow * unitsPerOne := Nat.mul_lt_mul_of_pos_right below unitsPerOne_pos
    _ ≤ overflow * (powerOfTen k).magnitude :=
      Nat.mul_le_mul_left _ (unitsPerOne_le_magnitude_powerOfTen k)

/-- For each great power of ten, the greatest number that it may be multiplied by gives no
infinity. -/
theorem product_lt_overflow : ∀ k < 309, 290 < k →
    (ofRatio false Decimal.greatest (10 ^ k)).magnitude * (powerOfTen k).magnitude <
      overflow * (unitsPerOne * unitsPerOne) := by
  decide +kernel

theorem isFinite_product (negative : Bool) {n k : Nat} (few : n ≤ 10 ^ 17) (place : k < 309)
    (bound : n * 10 ^ k ≤ Decimal.greatest) :
    (product negative (ofRatio false n 1) (powerOfTen k)).isFinite = true := by
  refine isFinite_ofRatio negative ?_
  rcases Nat.lt_or_ge 290 k with great | small
  · have factor : (ofRatio false n 1).magnitude ≤
        (ofRatio false Decimal.greatest (10 ^ k)).magnitude := by
      refine magnitude_ofRatio_mono Nat.one_pos (Nat.pow_pos (by decide)) ?_
      rwa [Nat.mul_one]
    exact Nat.lt_of_le_of_lt (Nat.mul_le_mul_right _ factor) (product_lt_overflow k place great)
  · have below : 10 ^ 17 * unitsPerOne * (powerOfTen 290).magnitude <
        overflow * (unitsPerOne * unitsPerOne) := by decide +kernel
    exact Nat.lt_of_le_of_lt
      (Nat.mul_le_mul (magnitude_ofRatio_le few) (magnitude_powerOfTen_mono small)) below

theorem magnitude_ofRatio_of_lt {n : Nat} (small : n < 2 ^ 53) :
    (ofRatio false n 1).magnitude = n * unitsPerOne := by
  have word : ofInt n = ofRatio false n 1 := by
    rw [ofInt, decide_eq_false (Int.not_lt.2 (Int.natCast_nonneg n)), Int.natAbs_natCast]
  rw [← word, ← natAbs_units, units_ofInt (by rwa [Int.natAbs_natCast])]
  rfl

theorem magnitude_powerOfTen : ∀ k < 23, (powerOfTen k).magnitude = 10 ^ k * unitsPerOne := by
  decide +kernel

theorem quotient_eq_ofRatio (negative : Bool) {n k : Nat} (small : n < 2 ^ 53) (near : k < 23) :
    quotient negative (ofRatio false n 1) (powerOfTen k) = ofRatio negative n (10 ^ k) := by
  rw [quotient, magnitude_ofRatio_of_lt small, magnitude_powerOfTen k near,
    ofRatio_mul_right _ _ _ unitsPerOne_pos]

theorem product_eq_ofRatio (negative : Bool) {n k : Nat} (small : n < 2 ^ 53) (near : k < 23) :
    product negative (ofRatio false n 1) (powerOfTen k) = ofRatio negative (n * 10 ^ k) 1 := by
  rw [product, magnitude_ofRatio_of_lt small, magnitude_powerOfTen k near,
    Nat.mul_mul_mul_comm]
  have shift := ofRatio_mul_right negative (n * 10 ^ k) 1
    (Nat.mul_pos unitsPerOne_pos unitsPerOne_pos)
  rwa [Nat.one_mul] at shift

end Binary64

namespace JsonText

open Binary64 (unitsPerOne)

theorem magnitude_shrink_le {x : Binary64} (small : x.magnitude ≤ 10 ^ 17 * unitsPerOne)
    (times : Nat) : (shrink times x).magnitude ≤ 10 ^ 17 * unitsPerOne := by
  induction times generalizing x with
  | zero => exact small
  | succ times ih =>
    rw [shrink]
    split
    · exact small
    · exact ih (Binary64.magnitude_quotient_le small 308)

theorem isFinite_scaled (negative : Bool) {n : Nat} {e : Int} (few : n ≤ 10 ^ 17)
    (bound : (n : ℚ) * 10 ^ e ≤ Decimal.greatest) : (scaled negative n e).isFinite = true := by
  rw [scaled]
  dsimp only
  split
  · have small := magnitude_shrink_le (Binary64.magnitude_ofRatio_le few)
    exact Binary64.isFinite_quotient negative (small _) _
  · next nonnegative =>
    obtain ⟨k, rfl⟩ := Int.eq_ofNat_of_zero_le (Int.not_lt.1 nonnegative)
    have bound : n * 10 ^ k ≤ Decimal.greatest := by exact_mod_cast bound
    split
    · next place => exact Binary64.isFinite_product negative few (by omega) bound
    · next beyond =>
      -- Any positive number would be too great at these places.
      have zero : n = 0 := by
        by_contra some
        have last : Decimal.greatest < 10 ^ 309 := by decide +kernel
        have power : 10 ^ 309 ≤ 10 ^ k := pow_le_pow_right₀ (by decide) (by omega)
        have more := Nat.le_mul_of_pos_left (10 ^ k) (Nat.pos_of_ne_zero some)
        exact absurd (Nat.le_trans more bound) (Nat.not_le.2 (Nat.lt_of_lt_of_le last power))
      rw [if_pos zero]
      exact Binary64.isFinite_ofWord negative (by decide)

/-- Few digits near the point are rounded once, to the nearest word. -/
theorem scaled_eq_ofDecimal (negative : Bool) {n : Nat} {e : Int} (positive : 0 < n)
    (few : n ≤ 10 ^ 15) (near : -22 ≤ e ∧ e ≤ 22) :
    scaled negative n e = Binary64.ofDecimal negative n e := by
  have small : n < 2 ^ 53 := Nat.lt_of_le_of_lt few (by decide)
  have digits : n.log2 < 53 := (Nat.log2_lt (Nat.pos_iff_ne_zero.1 positive)).2 small
  rw [Binary64.ofDecimal, if_neg (Nat.pos_iff_ne_zero.1 positive)]
  dsimp only
  rw [if_neg (by omega), if_neg (by omega), scaled]
  dsimp only
  by_cases before : e < 0
  · have once : ((-e).toNat - 1) / 308 = 0 := by omega
    rw [if_pos before, if_neg (by omega), once, shrink, Nat.mul_zero, Nat.sub_zero,
      Binary64.quotient_eq_ofRatio negative small (by omega)]
    rfl
  · rw [if_neg before, if_pos (by omega), if_pos (by omega),
      Binary64.product_eq_ofRatio negative small (by omega)]
    rfl

theorem le_ofDigitChars (cs : List Char) (n : Nat) : n ≤ Nat.ofDigitChars 10 cs n := by
  rw [Nat.ofDigitChars_eq_ofDigitChars_zero]
  exact Nat.le_trans (Nat.le_mul_of_pos_left n (Nat.pow_pos (by decide))) (Nat.le_add_right _ _)

theorem takeDigits_eq {cs : List Char} {n : Nat}
    (fits : Nat.ofDigitChars 10 cs n < UInt64.size) :
    takeDigits n cs = (Nat.ofDigitChars 10 cs n, []) := by
  induction cs generalizing n with
  | nil => rfl
  | cons c cs ih =>
    rw [Nat.ofDigitChars_cons] at fits ⊢
    rw [takeDigits, if_pos (Nat.lt_of_le_of_lt (le_ofDigitChars cs _) fits), ih fits]

theorem decimal_eq {whole fraction : List Char}
    (fits : Numeral.ofDigits (whole ++ fraction) < UInt64.size) (negative : Bool)
    (exponent : Int) :
    decimal negative whole fraction exponent =
      scaled negative (Numeral.ofDigits (whole ++ fraction)) (exponent - fraction.length) := by
  rw [Numeral.ofDigits, Nat.ofDigitChars_append] at fits ⊢
  have front := takeDigits_eq (Nat.lt_of_le_of_lt (le_ofDigitChars fraction _) fits)
  rw [decimal, front]
  simp only [takeDigits_eq fits, List.length_nil, Nat.cast_zero, sub_zero, add_zero]

end JsonText

end ImageCatalog
