import ImageCatalog.Proofs.Number.Cells
import Mathlib.Algebra.Order.Field.Power
import Mathlib.Tactic.Positivity

/-! The shortest decimal of a word lies in the cell of the word, so it reads back. Seventeen digits
suffice, as their grid is finer than any cell. -/

set_option autoImplicit false

namespace ImageCatalog

namespace Decimal

def exponent (d : Decimal) : Int := d.point - digitCount d.digits

theorem stripZeros_mul (fuel n : Nat) : (stripZeros fuel n).1 * 10 ^ (stripZeros fuel n).2 = n := by
  induction fuel generalizing n with
  | zero => simp [stripZeros]
  | succ fuel ih =>
    rw [stripZeros]
    split
    · next multiple =>
      have tenth := ih (n / 10)
      rw [Nat.pow_succ, ← Nat.mul_assoc, tenth]
      omega
    · simp

theorem digitCount_mul_ten {n : Nat} (positive : 0 < n) :
    digitCount (n * 10) = digitCount n + 1 := by
  rw [digitCount, digitCount, Nat.toDigits_of_base_le (by decide) (by omega), List.length_append,
    Nat.mul_div_cancel n (by decide), List.length_singleton]

theorem digitCount_mul_pow {n : Nat} (positive : 0 < n) (k : Nat) :
    digitCount (n * 10 ^ k) = digitCount n + k := by
  induction k with
  | zero => simp
  | succ k ih =>
    rw [Nat.pow_succ, ← Nat.mul_assoc, digitCount_mul_ten (by positivity), ih, Nat.add_assoc]

theorem ofGrid_spec {grid : Nat} (positive : 0 < grid) (step : Int) :
    0 < (ofGrid grid step).digits ∧ (ofGrid grid step).digits ≤ grid ∧
      ((ofGrid grid step).digits : ℚ) * 10 ^ (ofGrid grid step).exponent = grid * 10 ^ step := by
  have whole := stripZeros_mul (digitCount grid) grid
  have digits : (ofGrid grid step).digits = (stripZeros (digitCount grid) grid).1 := rfl
  have point : (ofGrid grid step).point = digitCount grid + step := rfl
  generalize stripZeros (digitCount grid) grid = stripped at whole digits
  obtain ⟨n, cut⟩ := stripped
  dsimp only at whole digits
  have some : 0 < n := by
    rcases Nat.eq_zero_or_pos n with rfl | some
    · omega
    · exact some
  have fewer : n ≤ grid := by
    rw [← whole]
    exact Nat.le_mul_of_pos_right _ (by positivity)
  refine ⟨by omega, by omega, ?_⟩
  have count := digitCount_mul_pow some cut
  rw [whole] at count
  have shift : (ofGrid grid step).exponent = cut + step := by
    rw [exponent, point, digits, count]
    push_cast
    ring
  rw [shift, digits, zpow_add₀ (by norm_num), zpow_natCast, ← mul_assoc, ← whole]
  push_cast
  ring

/-- The scales that make ratios and points of a grid whole. -/
def ratioScale (step : Int) : Nat := if step < 0 then Nat.pow 10 (-step).toNat else 1

def gridScale (step : Int) : Nat := if 0 ≤ step then Nat.pow 10 step.toNat else 1

theorem ratioScale_pos (step : Int) : 0 < ratioScale step := by
  rw [ratioScale]
  split
  · exact Nat.pow_pos (by decide)
  · decide

theorem gridScale_pos (step : Int) : 0 < gridScale step := by
  rw [gridScale]
  split
  · exact Nat.pow_pos (by decide)
  · decide

theorem gridScale_div_ratioScale (step : Int) :
    (gridScale step : ℚ) / ratioScale step = 10 ^ step := by
  rw [gridScale, ratioScale]
  rcases lt_or_ge step 0 with negative | positive
  · rw [if_neg (not_le.2 negative), if_pos negative]
    obtain ⟨n, rfl⟩ : ∃ n : Nat, step = -n := ⟨(-step).toNat, by omega⟩
    simp
  · rw [if_pos positive, if_neg (not_lt.2 positive)]
    obtain ⟨n, rfl⟩ := Int.eq_ofNat_of_zero_le positive
    simp

def Cell.holds (cell : Cell) (low high point : Nat) : Bool :=
  if cell.closed then decide (low ≤ point ∧ point ≤ high) else decide (low < point ∧ point < high)

theorem Cell.contains_iff_holds (cell : Cell) (num grid : Nat) {den : Nat} (positive : 0 < den)
    (step : Int) :
    cell.Contains (num / den) (grid * 10 ^ step) ↔
      cell.holds (num * cell.low * ratioScale step) (num * cell.high * ratioScale step)
        (grid * (den * gridScale step)) = true := by
  have divisor : (0 : ℚ) < den := Nat.cast_pos.2 positive
  have divisor' : (0 : ℚ) < ratioScale step := Nat.cast_pos.2 (ratioScale_pos step)
  have left : ∀ n : Nat, (n : ℚ) * num * ratioScale step =
      ((num * n * ratioScale step : Nat) : ℚ) := by
    intro n
    push_cast
    ring
  have right : (grid : ℚ) * gridScale step * den = ((grid * (den * gridScale step) : Nat) : ℚ) := by
    push_cast
    ring
  rw [Cell.Contains, ← gridScale_div_ratioScale, Cell.holds]
  simp only [mul_div_assoc', div_le_div_iff₀ divisor divisor', div_le_div_iff₀ divisor' divisor,
    div_lt_div_iff₀ divisor divisor', div_lt_div_iff₀ divisor' divisor, left, right, Nat.cast_le,
    Nat.cast_lt]
  split <;> rw [decide_eq_true_iff]

private theorem onGrid?_eq (tie : Tie) (cell : Cell) (num den : Nat) (exponent : Int)
    (count : Nat) :
    ∃ nearest : Bool, ∀ step, step = exponent - count + 1 →
      onGrid? tie cell num den exponent count =
        let below := num * cell.middle * ratioScale step / (den * gridScale step)
        let inside := fun grid => cell.holds (num * cell.low * ratioScale step)
          (num * cell.high * ratioScale step) (grid * (den * gridScale step))
        match inside below, inside (below + 1) with
        | true, true => some (ofGrid (if nearest then below else below + 1) step)
        | true, false => some (ofGrid below step)
        | false, true => some (ofGrid (below + 1) step)
        | false, false => none := by
  exact ⟨_, by rintro step rfl; rfl⟩

theorem contains_of_onGrid? {tie : Tie} {cell : Cell} {num den count : Nat} {exponent : Int}
    {d : Decimal} (positive : 0 < den)
    (found : onGrid? tie cell num den exponent count = some d) :
    ∃ grid, d = ofGrid grid (exponent - count + 1) ∧
      cell.Contains (num / den) (grid * 10 ^ (exponent - count + 1)) ∧
      ((grid : ℚ) - 1) * 10 ^ (exponent - count + 1) ≤ (num * cell.middle : Nat) / den := by
  obtain ⟨nearest, equation⟩ := onGrid?_eq tie cell num den exponent count
  rw [equation _ rfl] at found
  simp only [Cell.contains_iff_holds cell num _ positive]
  generalize exponent - count + 1 = step at found ⊢
  have scale := ratioScale_pos step
  have least : ((num * cell.middle * ratioScale step / (den * gridScale step) : Nat) : ℚ) *
      10 ^ step ≤ (num * cell.middle : Nat) / den := by
    have divisor : (0 : ℚ) < den := Nat.cast_pos.2 positive
    rw [← gridScale_div_ratioScale, mul_div_assoc', div_le_div_iff₀ (Nat.cast_pos.2 scale) divisor]
    have floor := Nat.div_mul_le_self (num * cell.middle * ratioScale step) (den * gridScale step)
    calc ((num * cell.middle * ratioScale step / (den * gridScale step) : Nat) : ℚ) *
          gridScale step * den
        = ((num * cell.middle * ratioScale step / (den * gridScale step) *
            (den * gridScale step) : Nat) : ℚ) := by
          push_cast
          ring
      _ ≤ (num * cell.middle * ratioScale step : Nat) := Nat.cast_le.2 floor
      _ = (num * cell.middle : Nat) * (ratioScale step : ℚ) := by push_cast; ring
  have power : (0 : ℚ) < 10 ^ step := by positivity
  dsimp only at found
  generalize num * cell.middle * ratioScale step / (den * gridScale step) = below at found least
  have lower : ((below : ℚ) - 1) * 10 ^ step ≤ (num * cell.middle : Nat) / den :=
    le_trans (mul_le_mul_of_nonneg_right (by linarith) (le_of_lt power)) least
  have upper : (((below + 1 : Nat) : ℚ) - 1) * 10 ^ step ≤ (num * cell.middle : Nat) / den := by
    rw [Nat.cast_add_one, add_sub_cancel_right]
    exact least
  split at found
  · next inside above =>
    obtain rfl := Option.some.inj found
    refine ⟨_, rfl, ?_⟩
    split
    · exact ⟨inside, lower⟩
    · exact ⟨above, upper⟩
  · next inside above =>
    exact ⟨_, (Option.some.inj found).symm, inside, lower⟩
  · next inside above =>
    exact ⟨_, (Option.some.inj found).symm, above, upper⟩
  · simp at found

theorem onGrid?_ne_none {tie : Tie} {cell : Cell} {num den count : Nat} {exponent : Int}
    (positive : 0 < den) (below : cell.low ≤ cell.middle) (above : cell.middle < cell.high)
    (some : 0 < num)
    (fine : (10 : ℚ) ^ (exponent - count + 1) < (cell.high - cell.low) * (num / den)) :
    onGrid? tie cell num den exponent count ≠ none := by
  obtain ⟨nearest, equation⟩ := onGrid?_eq tie cell num den exponent count
  rw [equation _ rfl]
  generalize exponent - count + 1 = step at fine ⊢
  have scale := ratioScale_pos step
  have unit : 0 < den * gridScale step := Nat.mul_pos positive (gridScale_pos step)
  have wide : den * gridScale step + num * cell.low * ratioScale step <
      num * cell.high * ratioScale step := by
    have divisor : (0 : ℚ) < den := Nat.cast_pos.2 positive
    rw [← gridScale_div_ratioScale, mul_div_assoc', div_lt_div_iff₀ (Nat.cast_pos.2 scale) divisor]
      at fine
    have : ((den * gridScale step + num * cell.low * ratioScale step : Nat) : ℚ) <
        (num * cell.high * ratioScale step : Nat) := by
      push_cast
      linarith
    exact_mod_cast this
  have lowest : num * cell.low * ratioScale step ≤ num * cell.middle * ratioScale step :=
    Nat.mul_le_mul_right _ (Nat.mul_le_mul_left _ below)
  have highest : num * cell.middle * ratioScale step < num * cell.high * ratioScale step :=
    Nat.mul_lt_mul_of_pos_right (Nat.mul_lt_mul_of_pos_left above some) scale
  generalize den * gridScale step = side at *
  generalize num * cell.low * ratioScale step = low at *
  generalize num * cell.middle * ratioScale step = middle at *
  generalize num * cell.high * ratioScale step = high at *
  have around : middle / side * side ≤ middle ∧ middle < (middle / side + 1) * side :=
    ⟨Nat.div_mul_le_self middle side, Nat.lt_mul_of_div_lt (Nat.lt_succ_self _) unit⟩
  generalize middle / side = grid at around ⊢
  rw [Nat.add_mul, Nat.one_mul] at around
  -- The cell is wider than a step, so one of the two points around its middle lies in it.
  have found : cell.holds low high (grid * side) = true ∨
      cell.holds low high ((grid + 1) * side) = true := by
    rw [Nat.add_mul, Nat.one_mul, Cell.holds, Cell.holds]
    generalize grid * side = point at around ⊢
    split <;> simp only [decide_eq_true_eq] <;> omega
  dsimp only
  split <;> simp_all

/-- Powers of two and of ten compare as `28 / 93` and `59 / 196` compare with `log 2 / log 10`. -/
theorem two_zpow_le_ten_zpow {c k : Int} (positive : 0 ≤ k) (rate : 28 * c ≤ 93 * k) :
    (2 : ℚ) ^ c ≤ 10 ^ k := by
  obtain ⟨k, rfl⟩ := Int.eq_ofNat_of_zero_le positive
  refine (pow_le_pow_iff_left₀ (by positivity) (by positivity) (by decide : 28 ≠ 0)).1 ?_
  calc ((2 : ℚ) ^ c) ^ 28 = 2 ^ (28 * c) := by rw [mul_comm, zpow_mul, zpow_ofNat]
    _ ≤ 2 ^ (93 * (k : Int)) := zpow_le_zpow_right₀ (by norm_num) rate
    _ = (2 ^ 93) ^ k := by rw [zpow_mul, zpow_ofNat, zpow_natCast]
    _ ≤ (10 ^ 28) ^ k := pow_le_pow_left₀ (by norm_num) (by norm_num) k
    _ = (10 ^ (k : Int)) ^ 28 := by rw [zpow_natCast, ← pow_mul, ← pow_mul, mul_comm]

theorem ten_zpow_le_two_zpow {c k : Int} (positive : 0 ≤ k) (rate : 196 * k ≤ 59 * c) :
    (10 : ℚ) ^ k ≤ 2 ^ c := by
  obtain ⟨k, rfl⟩ := Int.eq_ofNat_of_zero_le positive
  refine (pow_le_pow_iff_left₀ (by positivity) (by positivity) (by decide : 59 ≠ 0)).1 ?_
  calc ((10 : ℚ) ^ (k : Int)) ^ 59 = (10 ^ 59) ^ k := by
        rw [zpow_natCast, ← pow_mul, ← pow_mul, mul_comm]
    _ ≤ (2 ^ 196) ^ k := pow_le_pow_left₀ (by norm_num) (by norm_num) k
    _ = 2 ^ (196 * (k : Int)) := by rw [zpow_mul, zpow_ofNat, zpow_natCast]
    _ ≤ 2 ^ (59 * c) := zpow_le_zpow_right₀ (by norm_num) rate
    _ = (2 ^ c) ^ 59 := by rw [mul_comm, zpow_mul, zpow_ofNat]

theorem two_zpow_log2_le {n : Nat} (positive : 0 < n) : (2 : ℚ) ^ (n.log2 : Int) ≤ n := by
  rw [zpow_natCast]
  exact_mod_cast Nat.log2_self_le (Nat.pos_iff_ne_zero.1 positive)

theorem lt_two_zpow_log2 (n : Nat) : (n : ℚ) < 2 ^ ((n.log2 : Int) + 1) := by
  have := Nat.lt_log2_self (n := n)
  rw [← Nat.cast_add_one, zpow_natCast]
  exact_mod_cast this

def reaches (num den : Nat) (k : Int) : Bool :=
  if 0 ≤ k then decide (den * Nat.pow 10 k.toNat ≤ num)
  else decide (den ≤ num * Nat.pow 10 (-k).toNat)

theorem reaches_iff {num den : Nat} (positive : 0 < den) (k : Int) :
    reaches num den k = true ↔ (10 : ℚ) ^ k ≤ num / den := by
  have divisor : (0 : ℚ) < den := Nat.cast_pos.2 positive
  rw [le_div_iff₀ divisor, reaches]
  rcases lt_or_ge k 0 with negative | positive
  · obtain ⟨n, rfl⟩ : ∃ n : Nat, k = -n := ⟨(-k).toNat, by omega⟩
    have power : (0 : ℚ) < 10 ^ n := by positivity
    rw [if_neg (not_le.2 negative), decide_eq_true_iff, zpow_neg, zpow_natCast, inv_mul_eq_div,
      div_le_iff₀ power, Int.neg_neg, Int.toNat_natCast, Nat.pow_eq]
    exact_mod_cast Iff.rfl
  · obtain ⟨n, rfl⟩ := Int.eq_ofNat_of_zero_le positive
    rw [if_pos positive, decide_eq_true_iff, zpow_natCast, mul_comm]
    exact_mod_cast Iff.rfl

theorem ten_zpow_estimate_le {k : Int} (low : -8192 ≤ k) (high : k ≤ 8192) :
    (10 : ℚ) ^ (k * 30103 / 100000 - 1) ≤ 2 ^ (k - 1) := by
  rcases lt_or_ge (k * 30103 / 100000 - 1) 0 with negative | positive
  · have opposite := two_zpow_le_ten_zpow (c := -(k - 1)) (k := -(k * 30103 / 100000 - 1))
      (by omega) (by omega)
    rw [zpow_neg, zpow_neg] at opposite
    exact (inv_le_inv₀ (by positivity) (by positivity)).1 opposite
  · exact ten_zpow_le_two_zpow positive (by omega)

theorem two_zpow_le_ten_zpow_estimate {k : Int} (low : -8192 ≤ k) (high : k ≤ 8192) :
    (2 : ℚ) ^ (k + 1) ≤ 10 ^ (k * 30103 / 100000 + 2) := by
  rcases lt_or_ge (k * 30103 / 100000 + 2) 0 with negative | positive
  · have opposite := ten_zpow_le_two_zpow (c := -(k + 1)) (k := -(k * 30103 / 100000 + 2))
      (by omega) (by omega)
    rw [zpow_neg, zpow_neg] at opposite
    exact (inv_le_inv₀ (by positivity) (by positivity)).1 opposite
  · exact two_zpow_le_ten_zpow positive (by omega)

theorem exponentOf_spec {num den : Nat} (some : 0 < num) (positive : 0 < den)
    (small : num.log2 ≤ 8192) (small' : den.log2 ≤ 8192) :
    (10 : ℚ) ^ exponentOf num den ≤ num / den ∧ (num : ℚ) / den < 10 ^ (exponentOf num den + 1) := by
  have divisor : (0 : ℚ) < den := Nat.cast_pos.2 positive
  have binary : (2 : ℚ) ^ ((num.log2 : Int) - den.log2 - 1) ≤ num / den := by
    rw [le_div_iff₀ divisor]
    calc (2 : ℚ) ^ ((num.log2 : Int) - den.log2 - 1) * den
        ≤ 2 ^ ((num.log2 : Int) - den.log2 - 1) * 2 ^ ((den.log2 : Int) + 1) :=
          mul_le_mul_of_nonneg_left (le_of_lt (lt_two_zpow_log2 den)) (by positivity)
      _ = 2 ^ (num.log2 : Int) := by
          rw [← zpow_add₀ (by norm_num)]
          congr 1
          ring
      _ ≤ num := two_zpow_log2_le some
  have binary' : (num : ℚ) / den < 2 ^ ((num.log2 : Int) - den.log2 + 1) := by
    rw [div_lt_iff₀ divisor]
    calc (num : ℚ) < 2 ^ ((num.log2 : Int) + 1) := lt_two_zpow_log2 num
      _ = 2 ^ ((num.log2 : Int) - den.log2 + 1) * 2 ^ (den.log2 : Int) := by
          rw [← zpow_add₀ (by norm_num)]
          congr 1
          ring
      _ ≤ 2 ^ ((num.log2 : Int) - den.log2 + 1) * den :=
          mul_le_mul_of_nonneg_left (two_zpow_log2_le positive) (by positivity)
  have estimate := ten_zpow_estimate_le (k := (num.log2 : Int) - den.log2) (by omega) (by omega)
  have estimate' := two_zpow_le_ten_zpow_estimate (k := (num.log2 : Int) - den.log2) (by omega)
    (by omega)
  have equation : ∀ k, k = ((num.log2 : Int) - den.log2) * 30103 / 100000 →
      exponentOf num den = if reaches num den (k + 1) then k + 1
        else if reaches num den k then k else k - 1 := by
    rintro k rfl
    rfl
  have missed : ∀ k, ¬reaches num den k = true → (num : ℚ) / den < 10 ^ k :=
    fun k below => not_le.1 (mt (reaches_iff positive k).2 below)
  rw [equation _ rfl]
  split_ifs with above at_estimate
  · rw [add_assoc]
    exact ⟨(reaches_iff positive _).1 above, lt_of_lt_of_le binary' estimate'⟩
  · exact ⟨(reaches_iff positive _).1 at_estimate, missed _ above⟩
  · rw [sub_add_cancel]
    exact ⟨le_trans estimate binary, missed _ at_estimate⟩

theorem low_le_middle (x : Binary64) : (Cell.of x).low ≤ (Cell.of x).middle :=
  Nat.sub_le _ _

theorem middle_lt_high (x : Binary64) : (Cell.of x).middle < (Cell.of x).high :=
  Nat.lt_add_of_pos_right (by decide)

theorem middle_lt_width {x : Binary64} (some : 0 < x.significand) :
    (Cell.of x).middle < ((Cell.of x).high - (Cell.of x).low) * 10 ^ 16 := by
  have small := x.significand_lt
  rw [Cell.middle_of, Cell.high_of, Cell.low_of]
  split
  · next least =>
    have : x.significand = Binary64.hiddenBit := by
      rw [Binary64.significand, if_neg (by omega), least.1, Nat.add_zero]
    rw [this, Binary64.hiddenBit]
    decide
  · omega

theorem Cell.Contains.bounds {cell : Cell} {quarter q : ℚ} (inside : cell.Contains quarter q) :
    cell.low * quarter ≤ q ∧ q ≤ cell.high * quarter := by
  rw [Cell.Contains] at inside
  split at inside
  · exact inside
  · exact ⟨le_of_lt inside.1, le_of_lt inside.2⟩

theorem two_le_low {x : Binary64} (some : 0 < x.significand) : 2 ≤ (Cell.of x).low := by
  rw [Cell.low_of]
  split <;> omega

theorem unitsPerOne_eq : 4 * Binary64.unitsPerOne = 2 ^ 1076 := by decide +kernel

theorem quarter_eq (x : Binary64) : x.quarter = 2 ^ ((x.scale : Int) - 1076) := by
  have units : (4 * Binary64.unitsPerOne : ℚ) = 2 ^ 1076 := by
    have := congrArg (Nat.cast : Nat → ℚ) unitsPerOne_eq
    rwa [Nat.cast_mul, Nat.cast_pow, Nat.cast_ofNat, Nat.cast_ofNat] at this
  rw [Binary64.quarter, units, zpow_sub₀ (by norm_num), zpow_natCast, zpow_ofNat]

theorem Cell.Contains.size {x : Binary64} {q : ℚ} (finite : x.isFinite = true)
    (some : 0 < x.significand) (inside : (Cell.of x).Contains x.quarter q) :
    (2 : ℚ) ^ (-1075 : Int) ≤ q ∧ q ≤ 2 ^ (1024 : Int) := by
  have places := Binary64.scale_le_of_isFinite finite
  have small := x.significand_lt
  have low : ((2 : Nat) : ℚ) ≤ (Cell.of x).low := Nat.cast_le.2 (two_le_low some)
  have high : ((Cell.of x).high : ℚ) ≤ (2 ^ 55 : Nat) := by
    rw [Nat.cast_le, Cell.high_of]
    omega
  obtain ⟨lower, upper⟩ := inside.bounds
  rw [quarter_eq] at lower upper
  have power : (0 : ℚ) < 2 ^ ((x.scale : Int) - 1076) := by positivity
  constructor
  · calc (2 : ℚ) ^ (-1075 : Int) = 2 * 2 ^ (-1076 : Int) := by
          rw [← zpow_one_add₀ (by norm_num)]
          norm_num
      _ ≤ 2 * 2 ^ ((x.scale : Int) - 1076) :=
          mul_le_mul_of_nonneg_left (zpow_le_zpow_right₀ (by norm_num) (by omega)) (by norm_num)
      _ ≤ (Cell.of x).low * 2 ^ ((x.scale : Int) - 1076) :=
          mul_le_mul_of_nonneg_right (by exact_mod_cast low) (le_of_lt power)
      _ ≤ q := lower
  · calc q ≤ (Cell.of x).high * 2 ^ ((x.scale : Int) - 1076) := upper
      _ ≤ 2 ^ (55 : Int) * 2 ^ ((x.scale : Int) - 1076) :=
          mul_le_mul_of_nonneg_right (by exact_mod_cast high) (le_of_lt power)
      _ ≤ 2 ^ (55 : Int) * 2 ^ (969 : Int) :=
          mul_le_mul_of_nonneg_left (zpow_le_zpow_right₀ (by norm_num) (by omega)) (by positivity)
      _ = 2 ^ (1024 : Int) := by
          rw [← zpow_add₀ (by norm_num)]
          norm_num

private theorem middle_spec {x : Binary64} (finite : x.isFinite = true)
    (some : 0 < x.significand) :
    0 < (1 <<< x.scale) * (Cell.of x).middle ∧
      ((1 <<< x.scale) * (Cell.of x).middle).log2 ≤ 2100 := by
  have places := Binary64.scale_le_of_isFinite finite
  have small : (Cell.of x).middle < 2 ^ 55 := by
    have := x.significand_lt
    rw [Cell.middle_of]
    omega
  have positive : 0 < (1 <<< x.scale) * (Cell.of x).middle := by
    rw [Nat.one_shiftLeft]
    exact Nat.mul_pos (Nat.two_pow_pos _) (Nat.mul_pos (by decide) some)
  have bound : (1 <<< x.scale) * (Cell.of x).middle < 2 ^ (x.scale + 55) := by
    rw [Nat.one_shiftLeft, Nat.pow_add]
    exact Nat.mul_lt_mul_of_pos_left small (Nat.two_pow_pos _)
  have leading := (Nat.log2_lt (Nat.pos_iff_ne_zero.1 positive)).2 bound
  exact ⟨positive, by omega⟩

private theorem quarter_eq_div (x : Binary64) :
    x.quarter = ((1 <<< x.scale : Nat) : ℚ) / (4 * Binary64.unitsPerOne : Nat) := by
  rw [Binary64.quarter, Nat.one_shiftLeft]
  push_cast
  rfl

/-- Seventeen digits suffice: their grid has a point in the cell. -/
private theorem onGrid?_seventeen_ne_none (tie : Tie) {x : Binary64} (finite : x.isFinite = true)
    (some : 0 < x.significand) :
    onGrid? tie (Cell.of x) (1 <<< x.scale) (4 * Binary64.unitsPerOne)
      (exponentOf ((1 <<< x.scale) * (Cell.of x).middle) (4 * Binary64.unitsPerOne)) 17 ≠ none := by
  obtain ⟨numerator, leading⟩ := middle_spec finite some
  have positive : 0 < 4 * Binary64.unitsPerOne := Nat.mul_pos (by decide) Binary64.unitsPerOne_pos
  have scale : 0 < 1 <<< x.scale := Nat.pos_of_mul_pos_right numerator
  have unit : (0 : ℚ) < (1 <<< x.scale : Nat) / (4 * Binary64.unitsPerOne : Nat) :=
    div_pos (Nat.cast_pos.2 scale) (Nat.cast_pos.2 positive)
  have power := (exponentOf_spec numerator positive (by omega)
    (by rw [unitsPerOne_eq, Nat.log2_two_pow]; decide)).1
  generalize exponentOf _ _ = exponent at power ⊢
  apply onGrid?_ne_none positive (low_le_middle x) (middle_lt_high x) scale
  have wide : ((Cell.of x).middle : ℚ) < ((Cell.of x).high - (Cell.of x).low) * 10 ^ 16 := by
    have below := Nat.le_trans (low_le_middle x) (Nat.le_of_lt (middle_lt_high x))
    rw [← Nat.cast_sub below]
    exact_mod_cast middle_lt_width some
  have shift : (10 : ℚ) ^ exponent = 10 ^ (exponent - (17 : Nat) + 1) * 10 ^ 16 := by
    rw [← zpow_natCast, ← zpow_add₀ (by norm_num)]
    congr 1
    push_cast
    ring
  rw [Nat.cast_mul, mul_comm, mul_div_assoc, shift] at power
  have := mul_lt_mul_of_pos_right wide unit
  linarith

/-- The shortest decimal is a positive number in the cell, with at most seventeen digits. -/
theorem shortest_spec (tie : Tie) {x : Binary64} (finite : x.isFinite = true)
    (some : 0 < x.significand) :
    0 < (shortest tie x).digits ∧ (shortest tie x).digits ≤ 10 ^ 17 ∧
      (Cell.of x).Contains x.quarter ((shortest tie x).digits * 10 ^ (shortest tie x).exponent) := by
  have positive : 0 < 4 * Binary64.unitsPerOne := Nat.mul_pos (by decide) Binary64.unitsPerOne_pos
  have last := onGrid?_seventeen_ne_none tie finite some
  obtain ⟨numerator, leading⟩ := middle_spec finite some
  have size := (exponentOf_spec numerator positive (by omega)
    (by rw [unitsPerOne_eq, Nat.log2_two_pow]; decide)).2
  have unfolded : shortest tie x = ((List.range 17).findSome? fun n =>
      onGrid? tie (Cell.of x) (1 <<< x.scale) (4 * Binary64.unitsPerOne)
        (exponentOf ((1 <<< x.scale) * (Cell.of x).middle) (4 * Binary64.unitsPerOne))
        (n + 1)).getD ⟨0, 0⟩ := rfl
  rw [unfolded]
  generalize exponentOf _ _ = exponent at last size ⊢
  rcases search : (List.range 17).findSome? fun n =>
    onGrid? tie (Cell.of x) (1 <<< x.scale) (4 * Binary64.unitsPerOne) exponent (n + 1) with _ | d
  · exact absurd (List.findSome?_eq_none_iff.1 search 16 (by decide)) last
  · obtain ⟨n, listed, found⟩ := List.exists_of_findSome?_eq_some search
    obtain ⟨grid, rfl, inside, around⟩ := contains_of_onGrid? positive found
    rw [← quarter_eq_div] at inside
    have more : 0 < grid := by
      rcases Nat.eq_zero_or_pos grid with rfl | more
      · have size := (inside.size finite some).1
        rw [Nat.cast_zero, zero_mul] at size
        exact absurd size (not_le.2 (by positivity))
      · exact more
    obtain ⟨digits, fewer, value⟩ := ofGrid_spec more (exponent - (n + 1 : Nat) + 1)
    have few : grid ≤ 10 ^ (n + 1) := by
      have power : (0 : ℚ) < 10 ^ (exponent - (n + 1 : Nat) + 1) := by positivity
      have shift : (10 : ℚ) ^ (exponent + 1) =
          10 ^ (n + 1) * 10 ^ (exponent - (n + 1 : Nat) + 1) := by
        rw [← zpow_natCast, ← zpow_add₀ (by norm_num)]
        congr 1
        ring
      rw [shift] at size
      have below : (grid : ℚ) - 1 < 10 ^ (n + 1) :=
        lt_of_mul_lt_mul_right (lt_of_le_of_lt around size) (le_of_lt power)
      have below : grid < 10 ^ (n + 1) + 1 := by exact_mod_cast sub_lt_iff_lt_add.1 below
      omega
    have seventeen : 10 ^ (n + 1) ≤ 10 ^ 17 :=
      Nat.pow_le_pow_right (by decide) (List.mem_range.1 listed)
    rw [Option.getD_some, value]
    exact ⟨digits, Nat.le_trans fewer (Nat.le_trans few seventeen), inside⟩

def greatest : Nat := 17976931348623157 * 10 ^ 292

theorem shortest_le_greatest {x : Binary64} (finite : x.isFinite = true)
    (some : 0 < x.significand) :
    ((shortest .toEven x).digits : ℚ) * 10 ^ (shortest .toEven x).exponent ≤ greatest := by
  have places := Binary64.scale_le_of_isFinite finite
  have small := x.significand_lt
  by_cases last : x.unsignedWord = Binary64.infinityWord - 1
  · have same := x.ofWord_unsignedWord
    rw [last] at same
    have written : ∀ negative,
        shortest .toEven (.ofWord negative (Binary64.infinityWord - 1)) =
          ⟨17976931348623157, 309⟩ := by decide +kernel
    have exponent : (⟨17976931348623157, 309⟩ : Decimal).exponent = 292 := by decide +kernel
    rw [← same, written, exponent, greatest]
    norm_num
  · have inside := (shortest_spec .toEven finite some).2.2
    refine le_trans inside.bounds.2 ?_
    have below : ∀ k, k = 2045 → (4 * x.significand + 2) * 2 ^ x.scale ≤ (2 ^ 55 - 6) * 2 ^ k := by
      intro k place
      rw [Binary64.unsignedWord, Binary64.hiddenBit, Binary64.infinityWord] at last
      rcases Nat.lt_or_ge x.scale k with fewer | same
      · calc (4 * x.significand + 2) * 2 ^ x.scale
            ≤ (2 ^ 55 - 6) * 2 * 2 ^ x.scale := Nat.mul_le_mul_right _ (by omega)
          _ = (2 ^ 55 - 6) * 2 ^ (x.scale + 1) := by rw [Nat.mul_assoc, ← Nat.pow_succ']
          _ ≤ (2 ^ 55 - 6) * 2 ^ k :=
            Nat.mul_le_mul_left _ (Nat.pow_le_pow_right (by decide) fewer)
      · exact Nat.mul_le_mul (by omega) (Nat.pow_le_pow_right (by decide) (by omega))
    have power : (2 ^ 55 - 6) * 2 ^ 2045 ≤ greatest * (4 * Binary64.unitsPerOne) := by
      decide +kernel
    have units : (0 : ℚ) < (4 * Binary64.unitsPerOne : Nat) :=
      Nat.cast_pos.2 (Nat.mul_pos (by decide) Binary64.unitsPerOne_pos)
    rw [quarter_eq_div, Cell.high_of, mul_div_assoc', div_le_iff₀ units, Nat.one_shiftLeft]
    exact_mod_cast Nat.le_trans (below 2045 rfl) power

private theorem places_le_of_le {digits : Nat} {exponent : Int} (positive : 0 < digits)
    (bound : (digits : ℚ) * 10 ^ exponent ≤ 2 ^ (1024 : Int)) :
    (digits.log2 : Int) * 3 / 10 + exponent ≤ 330 := by
  by_contra beyond
  have power : (0 : ℚ) < 10 ^ exponent := by positivity
  have tenths : (10 : ℚ) ^ ((digits.log2 : Int) * 3 / 10) ≤ 2 ^ (digits.log2 : Int) := by
    apply ten_zpow_le_two_zpow <;> omega
  have fewer : (10 : ℚ) ^ (331 : Int) ≤ 2 ^ (1024 : Int) := by
    calc (10 : ℚ) ^ (331 : Int) ≤ 10 ^ ((digits.log2 : Int) * 3 / 10 + exponent) :=
          zpow_le_zpow_right₀ (by norm_num) (by omega)
      _ = 10 ^ ((digits.log2 : Int) * 3 / 10) * 10 ^ exponent := zpow_add₀ (by norm_num) _ _
      _ ≤ 2 ^ (digits.log2 : Int) * 10 ^ exponent :=
          mul_le_mul_of_nonneg_right tenths (le_of_lt power)
      _ ≤ digits * 10 ^ exponent :=
          mul_le_mul_of_nonneg_right (two_zpow_log2_le positive) (le_of_lt power)
      _ ≤ 2 ^ (1024 : Int) := bound
  have more : (2 : ℚ) ^ (1025 : Int) ≤ 10 ^ (331 : Int) :=
    two_zpow_le_ten_zpow (by decide) (by decide)
  have grows : (2 : ℚ) ^ (1024 : Int) < 2 ^ (1025 : Int) :=
    zpow_lt_zpow_right₀ (by norm_num) (by decide)
  exact absurd (le_trans more fewer) (not_le.2 grows)

private theorem le_places_of_le {digits : Nat} {exponent : Int}
    (bound : (2 : ℚ) ^ (-1075 : Int) ≤ digits * 10 ^ exponent) :
    -350 ≤ (digits.log2 : Int) * 3 / 10 + exponent + digits.log2 / 30 := by
  by_contra before
  have power : (0 : ℚ) < 10 ^ exponent := by positivity
  have tenths : (2 : ℚ) ^ ((digits.log2 : Int) + 1) ≤
      10 ^ ((digits.log2 : Int) * 3 / 10 + ((digits.log2 : Int) / 30 + 3)) := by
    apply two_zpow_le_ten_zpow <;> omega
  have fewer : (2 : ℚ) ^ (-1075 : Int) < 10 ^ (-348 : Int) := by
    calc (2 : ℚ) ^ (-1075 : Int) ≤ digits * 10 ^ exponent := bound
      _ < 2 ^ ((digits.log2 : Int) + 1) * 10 ^ exponent :=
          mul_lt_mul_of_pos_right (lt_two_zpow_log2 digits) power
      _ ≤ 10 ^ ((digits.log2 : Int) * 3 / 10 + ((digits.log2 : Int) / 30 + 3)) * 10 ^ exponent :=
          mul_le_mul_of_nonneg_right tenths (le_of_lt power)
      _ = 10 ^ ((digits.log2 : Int) * 3 / 10 + ((digits.log2 : Int) / 30 + 3) + exponent) :=
          (zpow_add₀ (by norm_num) _ _).symm
      _ ≤ 10 ^ (-348 : Int) := zpow_le_zpow_right₀ (by norm_num) (by omega)
  have more : (2 : ℚ) ^ (1075 : Int) ≤ 10 ^ (348 : Int) :=
    two_zpow_le_ten_zpow (by decide) (by decide)
  rw [zpow_neg, zpow_neg] at fewer
  exact absurd more (not_le.2 ((inv_lt_inv₀ (by positivity) (by positivity)).1 fewer))

theorem ofDecimal_of_contains {x : Binary64} (finite : x.isFinite = true)
    (some : 0 < x.significand) {digits : Nat} {exponent : Int} (positive : 0 < digits)
    (inside : (Cell.of x).Contains x.quarter (digits * 10 ^ exponent)) (negative : Bool) :
    Binary64.ofDecimal negative digits exponent = Binary64.ofWord negative x.unsignedWord := by
  obtain ⟨least, greatest⟩ := inside.size finite some
  have within := places_le_of_le positive greatest
  have soon := le_places_of_le least
  rw [Binary64.ofDecimal, if_neg (Nat.pos_iff_ne_zero.1 positive)]
  dsimp only
  rw [if_neg (by omega), if_neg (by omega)]
  split
  · next nonnegative =>
    obtain ⟨n, rfl⟩ := Int.eq_ofNat_of_zero_le nonnegative
    refine Binary64.ofRatio_of_contains finite (by decide) ?_ negative
    rw [zpow_natCast] at inside
    rw [Int.toNat_natCast, Nat.pow_eq]
    simpa using inside
  · next below =>
    obtain ⟨n, rfl⟩ : ∃ n : Nat, exponent = -n := ⟨(-exponent).toNat, by omega⟩
    refine Binary64.ofRatio_of_contains finite ?_ ?_ negative
    · exact Nat.pow_pos (by decide)
    · rw [zpow_neg, zpow_natCast, ← div_eq_mul_inv] at inside
      rw [Int.neg_neg, Int.toNat_natCast, Nat.pow_eq]
      simpa using inside

/-- However the shortest decimal of a word is written, it is read as that word. -/
theorem ofDecimal_of_eq_shortest (tie : Tie) {x : Binary64} (finite : x.isFinite = true)
    (some : 0 < x.significand) {n : Nat} {e : Int}
    (same : (n : ℚ) * 10 ^ e = (shortest tie x).digits * 10 ^ (shortest tie x).exponent) :
    Binary64.ofDecimal x.isNegative n e = x := by
  obtain ⟨digits, -, inside⟩ := shortest_spec tie finite some
  have value : (0 : ℚ) < n * 10 ^ e := by
    rw [same]
    exact mul_pos (Nat.cast_pos.2 digits) (by positivity)
  have positive : 0 < n := Nat.cast_pos.1 (pos_of_mul_pos_left value (by positivity))
  rw [← same] at inside
  rw [ofDecimal_of_contains finite some positive inside, Binary64.ofWord_unsignedWord]

end Decimal

end ImageCatalog
