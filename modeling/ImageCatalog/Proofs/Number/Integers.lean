import ImageCatalog.Number.Integers
import ImageCatalog.Proofs.Number.Cells
import Mathlib.Algebra.Order.Field.Power
import Mathlib.Tactic.FieldSimp
import Mathlib.Tactic.LinearCombination

/-! Integers of 64 bits among words. An integer that some word denotes is rounded to that word, so
the integer that a number is cut to is the same number again iff the number is one. Hence comparing
by way of cuts and of the integer below a fraction is comparing exactly. -/

set_option autoImplicit false

namespace ImageCatalog

namespace Binary64

private theorem units_positive : (0 : Int) < unitsPerOne := by
  exact_mod_cast unitsPerOne_pos

/-- The power stays a variable, so that it is not computed. -/
theorem exists_unitsPerOne_eq : ∃ k, k = 1074 ∧ unitsPerOne = 2 ^ k :=
  ⟨1074, rfl, by decide +kernel⟩

private theorem mul_units_lt {m n : Int} : m * unitsPerOne < n * unitsPerOne ↔ m < n :=
  Int.mul_lt_mul_right units_positive

theorem numLt_iff {x y : Binary64} :
    x.numLt y = true ↔ x.isNaN = false ∧ y.isNaN = false ∧ x.units < y.units := by
  simp [numLt, order?, and_assoc, Int.compare_eq_lt]

theorem numLe_iff {x y : Binary64} :
    x.numLe y = true ↔ x.isNaN = false ∧ y.isNaN = false ∧ x.units ≤ y.units := by
  rw [numLe, order?]
  cases x.isNaN <;> cases y.isNaN <;> simp [Int.compare_ne_gt]

theorem isNaN_of_isFinite {x : Binary64} (finite : x.isFinite = true) : x.isNaN = false := by
  simp_all [isFinite, isNaN]

private theorem isNegative_eq {x : Binary64} (nonzero : x.units ≠ 0) :
    x.isNegative = decide (x.units < 0) := by
  rw [units] at nonzero ⊢
  cases x.isNegative <;> simp at nonzero ⊢
  omega

theorem isFinite_ofInt64 (n : Int64) : (ofInt64 n).isFinite = true := by
  have below := n.toInt_lt
  have above := n.le_toInt
  exact isFinite_ofInt (by omega)

private theorem contains_of_magnitude_eq {x : Binary64} {n : Nat}
    (size : x.magnitude = n * unitsPerOne) :
    (Decimal.Cell.of x).Contains x.quarter (n / (1 : Nat)) := by
  have units : (0 : ℚ) < unitsPerOne := Nat.cast_pos.2 unitsPerOne_pos
  have middle : (n : ℚ) / (1 : Nat) = (4 * x.significand : Nat) * x.quarter := by
    have product : (x.significand : ℚ) * 2 ^ x.scale = n * unitsPerOne := by
      rw [magnitude, Nat.shiftLeft_eq] at size
      exact_mod_cast size
    rw [quarter, Nat.cast_one, div_one]
    field_simp
    push_cast
    linear_combination -4 * product
  have positive : 0 < x.quarter := div_pos (by positivity) (mul_pos (by norm_num) units)
  have closed : (Decimal.Cell.of x).closed = (x.significand % 2 == 0) := rfl
  rw [Decimal.Cell.Contains, middle, closed, Decimal.Cell.high_of, mul_le_mul_iff_left₀ positive,
    mul_le_mul_iff_left₀ positive, mul_lt_mul_iff_left₀ positive, mul_lt_mul_iff_left₀ positive]
  norm_cast
  rw [Decimal.Cell.low_of]
  split
  · omega
  · next odd =>
    rw [beq_iff_eq] at odd
    split <;> omega

/-- An integer that a word denotes is rounded to that word, up to the sign of zero. -/
theorem units_ofInt_of_units_eq {x : Binary64} {n : Int} (finite : x.isFinite = true)
    (denotes : x.units = n * unitsPerOne) : (ofInt n).units = x.units := by
  have size : x.magnitude = n.natAbs * unitsPerOne := by
    rw [← natAbs_units, denotes, Int.natAbs_mul, Int.natAbs_natCast]
  have word : ofInt n = ofWord (decide (n < 0)) x.unsignedWord :=
    ofRatio_of_contains finite Nat.one_pos (contains_of_magnitude_eq size) _
  by_cases zero : n = 0
  · subst zero
    rw [Int.natAbs_zero, Nat.zero_mul] at size
    rw [word, unsignedWord_of_magnitude size, denotes, Int.zero_mul]
    decide +kernel
  · have nonzero : x.units ≠ 0 := by
      rw [denotes]
      exact Int.mul_ne_zero zero (Int.ne_of_gt units_positive)
    have sign : decide (n < 0) = x.isNegative := by
      rw [isNegative_eq nonzero, denotes, decide_eq_decide, ← mul_units_lt, Int.zero_mul]
    rw [word, sign, ofWord_unsignedWord]

private theorem parts_ofWord (negative : Bool) (places : Nat) {digits : Nat}
    (bound : places ≤ 2045) (low : hiddenBit ≤ digits) (high : digits < 2 ^ 53) :
    (ofWord negative (places * hiddenBit + digits)).isNegative = negative ∧
      (ofWord negative (places * hiddenBit + digits)).isFinite = true ∧
      (ofWord negative (places * hiddenBit + digits)).magnitude = digits * 2 ^ places := by
  have bits : (ofWord negative (places * hiddenBit + digits)).bits.toNat =
      if negative then signBit + (places * hiddenBit + digits)
      else places * hiddenBit + digits := by
    rw [ofWord, UInt64.toNat_ofNat_of_lt']
    rw [UInt64.size, signBit, hiddenBit]
    split <;> omega
  have field : (ofWord negative (places * hiddenBit + digits)).field = places + 1 := by
    rw [Binary64.field, bits, signBit]
    rw [hiddenBit] at low ⊢
    split <;> omega
  have fraction : (ofWord negative (places * hiddenBit + digits)).fraction =
      digits - hiddenBit := by
    rw [Binary64.fraction, bits, signBit]
    rw [hiddenBit] at low ⊢
    split <;> omega
  refine ⟨?_, ?_, ?_⟩
  · rw [isNegative, bits, signBit, hiddenBit]
    cases negative <;> simp
    omega
  · rw [isFinite, field, bne_iff_ne]
    omega
  · rw [magnitude, significand, scale, field, fraction, if_neg (by omega), Nat.shiftLeft_eq,
      Nat.add_sub_cancel' low, Nat.add_sub_cancel]

private theorem exists_units_eq {n : Int} (small : n.natAbs < 2 ^ 53) :
    ∃ x : Binary64, x.isFinite = true ∧ x.units = n * unitsPerOne := by
  by_cases zero : n = 0
  · subst zero
    exact ⟨.zero, by decide, by rw [Int.zero_mul]; decide +kernel⟩
  have nonzero : n.natAbs ≠ 0 := by omega
  have top : n.natAbs.log2 < 53 := (Nat.log2_lt nonzero).2 small
  obtain ⟨rest, sum⟩ : ∃ rest, n.natAbs.log2 + rest = 52 := ⟨52 - n.natAbs.log2, by omega⟩
  -- The leading bit is moved to the place of the hidden one.
  have low : hiddenBit ≤ n.natAbs * 2 ^ rest := by
    have := Nat.mul_le_mul_right (2 ^ rest) (Nat.log2_self_le nonzero)
    rwa [← Nat.pow_add, sum] at this
  have high : n.natAbs * 2 ^ rest < 2 ^ 53 := by
    have := Nat.mul_lt_mul_of_pos_right (@Nat.lt_log2_self n.natAbs) (Nat.two_pow_pos rest)
    rwa [← Nat.pow_add, Nat.add_right_comm, sum] at this
  obtain ⟨k, place, power⟩ := exists_unitsPerOne_eq
  obtain ⟨sign, finite, size⟩ :=
    parts_ofWord (decide (n < 0)) (k - rest) (by omega) low high
  have product : n.natAbs * 2 ^ rest * 2 ^ (k - rest) = n.natAbs * unitsPerOne := by
    rw [Nat.mul_assoc, ← Nat.pow_add, Nat.add_sub_of_le (by omega), power]
  refine ⟨_, finite, ?_⟩
  rw [units, sign, size, product]
  by_cases negative : n < 0
  · rw [if_pos (by simpa using negative), Int.natCast_mul, ← Int.neg_mul,
      Int.ofNat_natAbs_of_nonpos (Int.le_of_lt negative), Int.neg_neg]
  · rw [if_neg (by simpa using negative), Int.natCast_mul,
      Int.natAbs_of_nonneg (Int.not_lt.1 negative)]

theorem units_ofInt {n : Int} (small : n.natAbs < 2 ^ 53) :
    (ofInt n).units = n * unitsPerOne := by
  obtain ⟨x, finite, denotes⟩ := exists_units_eq small
  rw [units_ofInt_of_units_eq finite denotes, denotes]

theorem numLt_zero_iff {x : Binary64} : x.numLt zero = true ↔ x.isNaN = false ∧ x.units < 0 := by
  rw [numLt_iff, show zero.isNaN = false by decide, show zero.units = 0 by decide +kernel]
  tauto

private theorem leastInt64_spec :
    leastInt64.isNaN = false ∧ leastInt64.units = -2 ^ 63 * unitsPerOne := by decide +kernel

private theorem pastInt64_spec :
    pastInt64.isNaN = false ∧ pastInt64.units = 2 ^ 63 * unitsPerOne := by decide +kernel

theorem numLt_leastInt64_iff {x : Binary64} :
    x.numLt leastInt64 = true ↔ x.isNaN = false ∧ x.units < -2 ^ 63 * unitsPerOne := by
  rw [numLt_iff, leastInt64_spec.1, leastInt64_spec.2]
  tauto

theorem pastInt64_numLe_iff {x : Binary64} :
    pastInt64.numLe x = true ↔ x.isNaN = false ∧ 2 ^ 63 * unitsPerOne ≤ x.units := by
  rw [numLe_iff, pastInt64_spec.1, pastInt64_spec.2]
  tauto

theorem withinInt64_iff {x : Binary64} :
    x.withinInt64 = true ↔
      x.isNaN = false ∧ -2 ^ 63 * unitsPerOne ≤ x.units ∧ x.units < 2 ^ 63 * unitsPerOne := by
  rw [withinInt64, Bool.and_eq_true, numLe_iff, numLt_iff, leastInt64_spec.1, leastInt64_spec.2,
    pastInt64_spec.1, pastInt64_spec.2]
  tauto

theorem truncate_eq (x : Binary64) :
    x.truncate = x.units / unitsPerOne +
      if 0 ≤ x.units ∨ (unitsPerOne : Int) ∣ x.units then 0 else 1 := by
  rw [truncate, Int.tdiv_eq_ediv, Int.sign_eq_one_of_pos units_positive]

theorem toInt_toInt64 {x : Binary64} (within : x.withinInt64 = true) :
    x.toInt64.toInt = x.truncate := by
  obtain ⟨number, above, below⟩ := withinInt64_iff.1 within
  have low : -2 ^ 63 ≤ x.units / unitsPerOne := (Int.le_ediv_iff_mul_le units_positive).2 above
  have high : x.units / unitsPerOne < 2 ^ 63 := (Int.ediv_lt_iff_lt_mul units_positive).2 below
  have bounds : -2 ^ 63 ≤ x.truncate ∧ x.truncate < 2 ^ 63 := by
    rw [truncate_eq]
    split
    · omega
    · next fraction =>
      have negative : x.units / unitsPerOne < 0 :=
        Int.ediv_neg_of_neg_of_pos (by omega) units_positive
      omega
  rw [toInt64, number, if_neg Bool.false_ne_true, clampInt64, Int64.toInt_minValue,
    Int64.toInt_maxValue, if_neg (by omega), if_neg (by omega),
    Int64.toInt_ofInt_of_le bounds.1 bounds.2]

private theorem toInt64_of_past {x : Binary64} (number : x.isNaN = false)
    (past : 2 ^ 63 * unitsPerOne ≤ x.units) : x.toInt64 = Int64.maxValue := by
  have beyond : 2 ^ 63 ≤ x.units / unitsPerOne := (Int.le_ediv_iff_mul_le units_positive).2 past
  have above : 0 ≤ x.units := by
    have := units_positive
    omega
  have cut : x.truncate = x.units / unitsPerOne := by
    rw [truncate_eq, if_pos (Or.inl above), Int.add_zero]
  rw [toInt64, number, if_neg Bool.false_ne_true, clampInt64, cut, Int64.toInt_minValue,
    Int64.toInt_maxValue, if_neg (by omega), if_pos (by omega)]

theorem toInt64_ofInt_of_past {n : Int} (low : 2 ^ 63 ≤ n) (high : n < 2 ^ 64) :
    (ofInt n).toInt64 = Int64.maxValue := by
  have number : (UInt64.ofNat n.toNat).toNat = n.toNat :=
    UInt64.toNat_ofNat_of_lt' (by rw [UInt64.size]; omega)
  have unsigned : ofInt n = ofUnsigned (UInt64.ofNat n.toNat) := by
    rw [ofInt, ofUnsigned, number, decide_eq_false (by omega)]
    congr 1
    omega
  have finite : (ofInt n).isFinite = true := isFinite_ofInt (by omega)
  apply toInt64_of_past (isNaN_of_isFinite finite)
  rw [unsigned]
  exact le_units_ofUnsigned (by omega)

theorem natAbs_mul_lt_magnitude {x : Binary64} (number : x.isNaN = false)
    (infinite : x.isFinite = false) (n : Int64) :
    n.toInt.natAbs * unitsPerOne < x.magnitude := by
  have field : x.field = 2047 := by simpa [isFinite] using infinite
  have fraction : x.fraction = 0 := by simpa [isNaN, field] using number
  have size : x.magnitude = (1 <<< 1024) * unitsPerOne := by
    rw [magnitude, significand, scale, field, fraction, if_neg (by decide)]
    decide +kernel
  have bound : n.toInt.natAbs ≤ 2 ^ 63 := by
    have below := n.toInt_lt
    have above := n.le_toInt
    omega
  rw [size]
  exact Nat.mul_lt_mul_of_pos_right (Nat.lt_of_le_of_lt bound (by decide +kernel)) unitsPerOne_pos

theorem isFinite_of_units_eq {x : Binary64} {n : Int64} (number : x.isNaN = false)
    (denotes : x.units = n.toInt * unitsPerOne) : x.isFinite = true := by
  by_contra infinite
  have beyond := natAbs_mul_lt_magnitude number (Bool.eq_false_of_not_eq_true infinite) n
  rw [← natAbs_units, denotes, Int.natAbs_mul, Int.natAbs_natCast] at beyond
  exact Nat.lt_irrefl _ beyond

private theorem natAbs_truncate_lt {x : Binary64} (fraction : ¬(unitsPerOne : Int) ∣ x.units) :
    x.truncate.natAbs < 2 ^ 53 := by
  obtain ⟨k, place, power⟩ := exists_unitsPerOne_eq
  have places : x.scale < k := by
    by_contra many
    apply fraction
    rw [← Int.dvd_natAbs, natAbs_units, Int.natCast_dvd_natCast, magnitude, Nat.shiftLeft_eq, power]
    exact Nat.dvd_mul_left_of_dvd (Nat.pow_dvd_pow 2 (Nat.not_lt.1 many)) _
  have size : x.magnitude < 2 ^ 53 * unitsPerOne := by
    rw [magnitude, Nat.shiftLeft_eq, power]
    exact Nat.mul_lt_mul_of_lt_of_le x.significand_lt
      (Nat.pow_le_pow_right (by decide) (Nat.le_of_lt places)) (Nat.two_pow_pos _)
  rw [truncate, Int.natAbs_tdiv, natAbs_units, Int.natAbs_natCast]
  exact (Nat.div_lt_iff_lt_mul unitsPerOne_pos).2 size

theorem integer?_eq_some_iff {x : Binary64} {n : Int64} :
    x.integer? = some n ↔ x.isNaN = false ∧ x.units = n.toInt * unitsPerOne := by
  rw [integer?, Option.ite_none_right_eq_some, Bool.and_eq_true, numEq_iff, Option.some.injEq]
  constructor
  · rintro ⟨⟨within, -, number, same⟩, rfl⟩
    refine ⟨number, ?_⟩
    rw [toInt_toInt64 within]
    by_cases whole : (unitsPerOne : Int) ∣ x.units
    · rw [truncate_eq, if_pos (Or.inr whole), Int.add_zero, Int.ediv_mul_cancel whole]
    · rw [← same, ofInt64, toInt_toInt64 within, units_ofInt (natAbs_truncate_lt whole)]
  · rintro ⟨number, denotes⟩
    have within : x.withinInt64 = true := by
      rw [withinInt64_iff, denotes, mul_units_lt]
      exact ⟨number, Int.mul_le_mul_of_nonneg_right n.le_toInt (Int.le_of_lt units_positive),
        n.toInt_lt⟩
    have cut : x.toInt64 = n := by
      rw [← Int64.toInt_inj, toInt_toInt64 within, truncate, denotes,
        Int.mul_tdiv_cancel _ (Int.ne_of_gt units_positive)]
    have finite := isFinite_of_units_eq number denotes
    have finite' : (ofInt64 n).isFinite = true := isFinite_ofInt64 n
    rw [cut, ofInt64, units_ofInt_of_units_eq finite denotes]
    exact ⟨⟨within, isNaN_of_isFinite finite', number, rfl⟩, rfl⟩

theorem integer?_ofUnsigned {n : UInt64} (large : maxRecordId < n) :
    (ofUnsigned n).integer? = none := by
  have past : 2 ^ 63 ≤ n.toNat := UInt64.lt_iff_toNat_lt.1 large
  rw [Option.eq_none_iff_forall_ne_some]
  intro m same
  have denotes := (integer?_eq_some_iff.1 same).2
  have beyond := le_units_ofUnsigned past
  rw [denotes] at beyond
  have above : 2 ^ 63 ≤ m.toInt := Int.le_of_mul_le_mul_right beyond units_positive
  have below := m.toInt_lt
  omega

/-- What comparing with an integer has found when it cuts the number: the number has a fraction,
and lies past neither end. -/
structure HasCut (x : Binary64) : Prop where
  number : x.isNaN = false
  fraction : x.integer? = none
  below : ¬pastInt64.numLe x = true
  above : ¬x.numLt leastInt64 = true

theorem HasCut.within {x : Binary64} (cut : x.HasCut) : x.withinInt64 = true := by
  obtain ⟨number, -, below, above⟩ := cut
  rw [pastInt64_numLe_iff, not_and, Int.not_le] at below
  rw [numLt_leastInt64_iff, not_and, Int.not_lt] at above
  exact withinInt64_iff.2 ⟨number, above number, below number⟩

private theorem not_dvd_of_integer?_eq_none {x : Binary64} (within : x.withinInt64 = true)
    (none : x.integer? = none) : ¬(unitsPerOne : Int) ∣ x.units := by
  intro whole
  obtain ⟨number, above, below⟩ := withinInt64_iff.1 within
  have low : -2 ^ 63 ≤ x.units / unitsPerOne := (Int.le_ediv_iff_mul_le units_positive).2 above
  have high : x.units / unitsPerOne < 2 ^ 63 := (Int.ediv_lt_iff_lt_mul units_positive).2 below
  have integral : x.integer? = some (Int64.ofInt (x.units / unitsPerOne)) := by
    rw [integer?_eq_some_iff, Int64.toInt_ofInt_of_le low high, Int.ediv_mul_cancel whole]
    exact ⟨number, rfl⟩
  rw [none] at integral
  cases integral

theorem toInt_toInt64_sub_one {x : Binary64} (within : x.withinInt64 = true)
    (none : x.integer? = none) (negative : x.numLt zero = true) :
    (x.toInt64 - 1).toInt = x.toInt64.toInt - 1 := by
  have fraction := not_dvd_of_integer?_eq_none within none
  have below := (numLt_zero_iff.1 negative).2
  have low : -2 ^ 63 ≤ x.units / unitsPerOne :=
    (Int.le_ediv_iff_mul_le units_positive).2 (withinInt64_iff.1 within).2.1
  have cut : x.toInt64.toInt = x.units / unitsPerOne + 1 := by
    rw [toInt_toInt64 within, truncate_eq, if_neg (not_or.2 ⟨Int.not_le.2 below, fraction⟩)]
  have most := x.toInt64.toInt_lt
  rw [Int64.toInt_sub, Int64.toInt_one, Int.bmod_eq_of_le (by omega) (by omega)]

theorem toInt_floorInt64 {x : Binary64} (within : x.withinInt64 = true)
    (none : x.integer? = none) : x.floorInt64.toInt = x.units / unitsPerOne := by
  have fraction := not_dvd_of_integer?_eq_none within none
  rw [floorInt64]
  split
  · next negative =>
    have below := (numLt_zero_iff.1 negative).2
    rw [toInt_toInt64_sub_one within none negative, toInt_toInt64 within, truncate_eq,
      if_neg (not_or.2 ⟨Int.not_le.2 below, fraction⟩), Int.add_sub_cancel]
  · next positive =>
    rw [numLt_zero_iff, not_and, Int.not_lt] at positive
    have above := positive (withinInt64_iff.1 within).1
    rw [toInt_toInt64 within, truncate_eq, if_pos (Or.inl above), Int.add_zero]

theorem compare_mul_units (m n : Int) :
    compare (m * unitsPerOne) (n * unitsPerOne) = compare m n := by
  rcases Int.lt_trichotomy m n with below | rfl | above
  · rw [Int.compare_eq_lt.2 below, Int.compare_eq_lt.2 (mul_units_lt.2 below)]
  · rw [Int.compare_eq_eq.2 rfl, Int.compare_eq_eq.2 rfl]
  · rw [Int.compare_eq_gt.2 above, Int.compare_eq_gt.2 (mul_units_lt.2 above)]

private theorem compare_floorInt64 {n : Int64} {x : Binary64} (within : x.withinInt64 = true)
    (none : x.integer? = none) :
    (if n ≤ x.floorInt64 then .lt else .gt) = compare (n.toInt * unitsPerOne) x.units := by
  have fraction := not_dvd_of_integer?_eq_none within none
  have differ : n.toInt * unitsPerOne ≠ x.units := fun same => fraction ⟨n.toInt, by
    rw [← same, Int.mul_comm]⟩
  have place : n ≤ x.floorInt64 ↔ n.toInt * unitsPerOne ≤ x.units := by
    rw [Int64.le_iff_toInt_le, toInt_floorInt64 within none,
      Int.le_ediv_iff_mul_le units_positive]
  split
  · next below =>
    exact (Int.compare_eq_lt.2 (Int.lt_iff_le_and_ne.2 ⟨place.1 below, differ⟩)).symm
  · next above => exact (Int.compare_eq_gt.2 (Int.not_le.1 (mt place.2 above))).symm

theorem orderOfInt?_eq (n : Int64) (x : Binary64) :
    orderOfInt? n x =
      if x.isNaN then none else some (compare (n.toInt * unitsPerOne) x.units) := by
  rw [orderOfInt?]
  split
  · rfl
  next number =>
  rw [Bool.not_eq_true] at number
  cases integral : x.integer? with
  | some m => rw [(integer?_eq_some_iff.1 integral).2, compare_mul_units]
  | none =>
    dsimp only
    split
    · next past =>
      have beyond := (pastInt64_numLe_iff.1 past).2
      have below := Int.lt_of_lt_of_le (mul_units_lt.2 n.toInt_lt) beyond
      rw [Int.compare_eq_lt.2 below]
    split
    · next least =>
      have beneath := (numLt_leastInt64_iff.1 least).2
      have above := Int.lt_of_lt_of_le beneath
        (Int.mul_le_mul_of_nonneg_right n.le_toInt (Int.le_of_lt units_positive))
      rw [Int.compare_eq_gt.2 above]
    · next past least =>
      have cut : x.HasCut := ⟨number, integral, past, least⟩
      rw [compare_floorInt64 cut.within integral]

end Binary64

end ImageCatalog
