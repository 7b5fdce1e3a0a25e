import ImageCatalog.Proofs.Number.Cells

set_option autoImplicit false

namespace ImageCatalog

namespace Binary64

/-- The word, without sign, that a ratio of units is rounded to, if words went on past the
infinities. -/
def roundedWord (units den : Nat) : Nat :=
  ((units / den).log2 - 52) * hiddenBit + divideToEven units (den <<< ((units / den).log2 - 52))

theorem ofRatio_eq (negative : Bool) (num den : Nat) : ofRatio negative num den =
    ofWord negative (min (roundedWord (num * unitsPerOne) den) infinityWord) := rfl

theorem divideToEven_mul_right (num den : Nat) {c : Nat} (positive : 0 < c) :
    divideToEven (num * c) (den * c) = divideToEven num den := by
  have twice : 2 * (num % den * c) = 2 * (num % den) * c := by ring
  simp only [divideToEven, Nat.mul_div_mul_right _ _ positive, Nat.mul_mod_mul_right, twice,
    Nat.mul_lt_mul_right positive]

theorem roundedWord_mul_right (units den : Nat) {c : Nat} (positive : 0 < c) :
    roundedWord (units * c) (den * c) = roundedWord units den := by
  have shift : ∀ k, (den * c) <<< k = den <<< k * c := fun k => by
    rw [Nat.shiftLeft_eq, Nat.shiftLeft_eq, Nat.mul_right_comm]
  rw [roundedWord, Nat.mul_div_mul_right _ _ positive, shift,
    divideToEven_mul_right _ _ positive, ← roundedWord]

theorem ofRatio_mul_right (negative : Bool) (num den : Nat) {c : Nat} (positive : 0 < c) :
    ofRatio negative (num * c) (den * c) = ofRatio negative num den := by
  rw [ofRatio_eq, Nat.mul_right_comm, roundedWord_mul_right _ _ positive, ← ofRatio_eq]

theorem divideToEven_le {num den m : Nat} (half : 2 * num < (2 * m + 1) * den) :
    divideToEven num den ≤ m := by
  have parts := Nat.div_add_mod num den
  have positive : 0 < den := Nat.pos_of_mul_pos_left (Nat.zero_lt_of_lt half)
  have below : num / den ≤ m := by
    refine Nat.lt_add_one_iff.1 ((Nat.div_lt_iff_lt_mul positive).2 ?_)
    rw [Nat.add_mul] at half ⊢
    rw [Nat.mul_assoc] at half
    omega
  rcases Nat.lt_or_ge (num / den) m with less | same
  · exact Nat.le_trans (divideToEven_bounds num den).2 less
  · obtain rfl : m = num / den := Nat.le_antisymm same below
    have small : 2 * (num % den) < den := by
      rw [Nat.add_mul, Nat.mul_assoc, Nat.mul_comm (num / den)] at half
      omega
    simp only [divideToEven, if_pos small, Nat.le_refl]

theorem divideToEven_mono {num num' : Nat} (den : Nat) (le : num ≤ num') :
    divideToEven num den ≤ divideToEven num' den := by
  rcases Nat.lt_or_ge (num / den) (num' / den) with less | same
  · calc divideToEven num den ≤ num / den + 1 := (divideToEven_bounds num den).2
      _ ≤ num' / den := less
      _ ≤ divideToEven num' den := (divideToEven_bounds num' den).1
  · have quotient : num / den = num' / den := Nat.le_antisymm (Nat.div_le_div_right le) same
    have parts := Nat.div_add_mod num den
    have parts' := Nat.div_add_mod num' den
    rw [quotient] at parts
    have rest : num % den ≤ num' % den := by omega
    simp only [divideToEven, quotient]
    split_ifs <;> omega

theorem digits_bounds (units den : Nat) :
    units / (den <<< ((units / den).log2 - 52)) < 2 ^ 53 ∧
      (0 < (units / den).log2 - 52 →
        2 ^ 52 ≤ units / (den <<< ((units / den).log2 - 52))) := by
  rw [Nat.shiftLeft_eq, ← Nat.div_div_eq_div_mul]
  generalize units / den = q
  have power := Nat.two_pow_pos (q.log2 - 52)
  constructor
  · rw [Nat.div_lt_iff_lt_mul power, ← Nat.pow_add]
    exact Nat.lt_of_lt_of_le Nat.lt_log2_self (Nat.pow_le_pow_right (by decide) (by omega))
  · intro normal
    have nonzero : q ≠ 0 := by
      rintro rfl
      simp at normal
    rw [Nat.le_div_iff_mul_le power, ← Nat.pow_add, Nat.add_sub_cancel' (by omega)]
    exact Nat.log2_self_le nonzero

theorem roundedWord_mono {units units' : Nat} (den : Nat) (le : units ≤ units') :
    roundedWord units den ≤ roundedWord units' den := by
  have places : (units / den).log2 ≤ (units' / den).log2 := by
    rcases Nat.eq_zero_or_pos (units / den) with zero | some
    · rw [zero]
      exact Nat.zero_le _
    · have quotients := Nat.div_le_div_right (c := den) le
      refine (Nat.le_log2 (by omega)).2 (Nat.le_trans (Nat.log2_self_le (by omega)) quotients)
  have top := (digits_bounds units den).1
  have bottom := (digits_bounds units' den).2
  have above := (divideToEven_bounds units (den <<< ((units / den).log2 - 52))).2
  have below := (divideToEven_bounds units' (den <<< ((units' / den).log2 - 52))).1
  rw [roundedWord, roundedWord]
  rcases Nat.lt_or_ge ((units / den).log2 - 52) ((units' / den).log2 - 52) with less | same
  · have digits := bottom (by omega)
    rw [hiddenBit]
    omega
  · have scale : (units / den).log2 - 52 = (units' / den).log2 - 52 := by omega
    rw [scale]
    exact Nat.add_le_add_left (divideToEven_mono _ le) _

theorem magnitude_ofWord {word : Nat} (le : word ≤ infinityWord) :
    (ofWord false word).magnitude = if word < hiddenBit then word
      else (hiddenBit + word % hiddenBit) * 2 ^ (word / hiddenBit - 1) := by
  rw [infinityWord] at le
  have bits : (ofWord false word).bits.toNat = word := by
    rw [ofWord, if_neg Bool.false_ne_true, UInt64.toNat_ofNat_of_lt']
    rw [UInt64.size]
    omega
  have field : (ofWord false word).field = word / hiddenBit := by
    rw [Binary64.field, bits, hiddenBit]
    omega
  rw [magnitude, significand, scale, field, fraction, bits, Nat.shiftLeft_eq]
  by_cases small : word < hiddenBit
  · rw [if_pos small, Nat.div_eq_of_lt small, if_pos rfl, Nat.mod_eq_of_lt small]
    exact Nat.mul_one word
  · have normal : word / hiddenBit ≠ 0 := by
      rw [hiddenBit] at small ⊢
      omega
    rw [if_neg small, if_neg normal]

theorem magnitude_ofWord_mono {word word' : Nat} (le : word ≤ word') (last : word' ≤ infinityWord) :
    (ofWord false word).magnitude ≤ (ofWord false word').magnitude := by
  rw [magnitude_ofWord (Nat.le_trans le last), magnitude_ofWord last]
  have positive : 0 < hiddenBit := by decide
  have digits := Nat.mod_lt word positive
  have parts := Nat.div_add_mod word hiddenBit
  have parts' := Nat.div_add_mod word' hiddenBit
  split
  · next small =>
    split
    · exact le
    · have power := Nat.two_pow_pos (word' / hiddenBit - 1)
      exact Nat.le_trans (by omega) (Nat.le_mul_of_pos_right _ power)
  · next normal =>
    rw [if_neg (by omega)]
    rcases Nat.lt_or_ge (word / hiddenBit) (word' / hiddenBit) with less | same
    · calc (hiddenBit + word % hiddenBit) * 2 ^ (word / hiddenBit - 1)
          ≤ (hiddenBit * 2) * 2 ^ (word / hiddenBit - 1) := Nat.mul_le_mul_right _ (by omega)
        _ = hiddenBit * 2 ^ (word / hiddenBit) := by
          have some : 0 < word / hiddenBit := Nat.div_pos (by omega) positive
          rw [Nat.mul_assoc, ← Nat.pow_succ', Nat.succ_eq_add_one, Nat.sub_add_cancel some]
        _ ≤ hiddenBit * 2 ^ (word' / hiddenBit - 1) :=
          Nat.mul_le_mul_left _ (Nat.pow_le_pow_right (by decide) (by omega))
        _ ≤ (hiddenBit + word' % hiddenBit) * 2 ^ (word' / hiddenBit - 1) :=
          Nat.mul_le_mul_right _ (Nat.le_add_right _ _)
    · have quotient : word / hiddenBit = word' / hiddenBit :=
        Nat.le_antisymm (Nat.div_le_div_right le) same
      rw [quotient] at parts ⊢
      exact Nat.mul_le_mul_right _ (by omega)

theorem magnitude_ofRatio_mono {num den num' den' : Nat} (positive : 0 < den)
    (positive' : 0 < den') (le : num * den' ≤ num' * den) :
    (ofRatio false num den).magnitude ≤ (ofRatio false num' den').magnitude := by
  have words : roundedWord (num * unitsPerOne) den ≤ roundedWord (num' * unitsPerOne) den' := by
    rw [← roundedWord_mul_right _ _ positive', ← roundedWord_mul_right (num' * unitsPerOne) _ positive,
      Nat.mul_comm den']
    refine roundedWord_mono _ ?_
    rw [Nat.mul_right_comm, Nat.mul_right_comm num']
    exact Nat.mul_le_mul_right _ le
  rw [ofRatio_eq, ofRatio_eq]
  refine magnitude_ofWord_mono ?_ (Nat.min_le_right _ _)
  exact le_min (Nat.le_trans (Nat.min_le_left _ _) words) (Nat.min_le_right _ _)

theorem roundedWord_lt_infinityWord {units den k : Nat} (place : k = 2044)
    (below : units < (2 ^ 54 - 1) * 2 ^ k * den) : roundedWord units den < infinityWord := by
  have positive : 0 < den := Nat.pos_of_mul_pos_left (Nat.zero_lt_of_lt below)
  have quotient : units / den < 2 ^ (54 + k) := by
    rw [Nat.div_lt_iff_lt_mul positive, Nat.pow_add]
    exact Nat.lt_of_lt_of_le below
      (Nat.mul_le_mul_right _ (Nat.mul_le_mul_right _ (Nat.sub_le _ _)))
  have places : (units / den).log2 ≤ 53 + k := by
    by_cases zero : units / den = 0
    · rw [zero]
      exact Nat.zero_le _
    · have := (Nat.log2_lt zero).2 quotient
      omega
  have digits := (digits_bounds units den).1
  have above := (divideToEven_bounds units (den <<< ((units / den).log2 - 52))).2
  rw [roundedWord, infinityWord]
  rcases Nat.lt_or_ge ((units / den).log2 - 52) (k + 1) with fewer | last
  · rw [hiddenBit]
    omega
  · have scale : (units / den).log2 - 52 = k + 1 := by omega
    rw [scale]
    -- The digits come to less than `2 ^ 53 - 1 / 2`, so they are not rounded up to `2 ^ 53`.
    have rounded : divideToEven units (den <<< (k + 1)) ≤ 2 ^ 53 - 1 := by
      apply divideToEven_le
      have double : (2 * (2 ^ 53 - 1) + 1) * den <<< (k + 1) =
          2 * ((2 ^ 54 - 1) * 2 ^ k * den) := by
        rw [Nat.shiftLeft_eq, Nat.pow_succ]
        ring
      rw [double]
      exact Nat.mul_lt_mul_of_pos_left below (by decide)
    rw [hiddenBit]
    omega

/-- The least number that is rounded to an infinity, `2 ^ 1024 - 2 ^ 970`. -/
def overflow : Nat := (2 ^ 54 - 1) * 2 ^ 970

theorem isFinite_ofRatio (negative : Bool) {num den : Nat} (below : num < overflow * den) :
    (ofRatio negative num den).isFinite = true := by
  have scaled : overflow * unitsPerOne = (2 ^ 54 - 1) * 2 ^ 2044 := by decide +kernel
  have units : num * unitsPerOne < (2 ^ 54 - 1) * 2 ^ 2044 * den := by
    rw [← scaled, Nat.mul_right_comm]
    exact Nat.mul_lt_mul_of_pos_right below unitsPerOne_pos
  have word := roundedWord_lt_infinityWord rfl units
  rw [ofRatio_eq, Nat.min_eq_left (Nat.le_of_lt word)]
  exact isFinite_ofWord negative word

end Binary64

end ImageCatalog
