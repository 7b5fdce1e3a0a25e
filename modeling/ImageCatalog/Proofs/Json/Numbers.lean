import ImageCatalog.Proofs.Json.Scaling

/-! A number is written so that it can be read: an integer of 64 bits as that integer, a finite word
as a finite word. The powers of ten that its digits are scaled with are rounded, so that one may be a
neighbour of the word that was written. -/

set_option autoImplicit false

namespace ImageCatalog

namespace JsonText

open Text (Decoded)

def EndsNumber (rest : Decoded) : Prop :=
  ∀ c, rest.head? = some (some c) → c.isDigit = false ∧ c ≠ '.' ∧ c ≠ 'e' ∧ c ≠ 'E'

/-- A text from which a value is read, whatever follows it. -/
def Reads {α : Type} (reader : Reader α) (text : List Char) (a : α) : Prop :=
  ∀ rest, EndsNumber rest → reader (text.map some ++ rest) = .ok (a, rest)

def AllDigits (cs : List Char) : Prop := ∀ c ∈ cs, c.isDigit = true

theorem allDigits_toDigits (n : Nat) : AllDigits (Nat.toDigits 10 n) :=
  fun _ mem => Nat.isDigit_of_mem_toDigits (by decide) (by decide) mem

theorem allDigits_replicate (k : Nat) : AllDigits (List.replicate k '0') := by
  intro c mem
  rw [List.eq_of_mem_replicate mem]
  rfl

theorem AllDigits.append {cs ds : List Char} (front : AllDigits cs) (back : AllDigits ds) :
    AllDigits (cs ++ ds) := by
  intro c mem
  rcases List.mem_append.1 mem with mem | mem
  · exact front c mem
  · exact back c mem

theorem AllDigits.take {cs : List Char} (all : AllDigits cs) (k : Nat) : AllDigits (cs.take k) :=
  fun c mem => all c (List.mem_of_mem_take mem)

theorem AllDigits.drop {cs : List Char} (all : AllDigits cs) (k : Nat) : AllDigits (cs.drop k) :=
  fun c mem => all c (List.mem_of_mem_drop mem)

theorem head?_toDigits_ne {n : Nat} (positive : 0 < n) :
    (Nat.toDigits 10 n).head? ≠ some '0' := by
  induction n using Nat.strongRecOn with
  | ind n ih =>
    rcases Nat.lt_or_ge n 10 with small | large
    · rw [Nat.toDigits_of_lt_base small]
      simp [Nat.pos_iff_ne_zero.1 positive]
    · rw [Nat.toDigits_of_base_le (by decide) large,
        List.head?_append_of_ne_nil _ Nat.toDigits_ne_nil]
      exact ih (n / 10) (by omega) (by omega)

theorem spanDigits_append {ds : List Char} (all : AllDigits ds) {rest : Decoded}
    (ends : ∀ c, rest.head? = some (some c) → c.isDigit = false) :
    spanDigits (ds.map some ++ rest) = (ds, rest) := by
  induction ds with
  | nil =>
    rcases rest with _ | ⟨_ | c, rest⟩
    · rfl
    · rfl
    · have other := ends c rfl
      simp [spanDigits, other]
  | cons d ds ih =>
    have digit := all d List.mem_cons_self
    have others := ih fun c mem => all c (List.mem_cons_of_mem d mem)
    rw [List.map_cons, List.cons_append, spanDigits, if_pos digit, others]
    rfl

theorem digits_append {ds : List Char} (nonempty : ds ≠ []) (all : AllDigits ds) {rest : Decoded}
    (ends : ∀ c, rest.head? = some (some c) → c.isDigit = false) :
    digits (ds.map some ++ rest) = .ok (ds, rest) := by
  obtain ⟨d, ds, rfl⟩ := List.exists_cons_of_ne_nil nonempty
  rw [digits, spanDigits_append all ends]

structure Whole (cs : List Char) : Prop where
  nonempty : cs ≠ []
  digits : AllDigits cs
  zero : cs.head? = some '0' → cs = ['0']

theorem whole_toDigits (n : Nat) : Whole (Nat.toDigits 10 n) where
  nonempty := Nat.toDigits_ne_nil
  digits := allDigits_toDigits n
  zero first := by
    rcases Nat.eq_zero_or_pos n with rfl | positive
    · rfl
    · exact absurd first (head?_toDigits_ne positive)

theorem Whole.read {cs : List Char} (whole : Whole cs) {rest : Decoded}
    (ends : ∀ c, rest.head? = some (some c) → c.isDigit = false) :
    wholePart (cs.map some ++ rest) = .ok (cs, rest) := by
  by_cases zero : cs.head? = some '0'
  · have none := @spanDigits_append [] (fun _ mem => absurd mem List.not_mem_nil) _ ends
    rw [whole.zero zero]
    simp only [List.map_nil, List.nil_append] at none
    simp [wholePart, none]
  · have all := digits_append whole.nonempty whole.digits ends
    obtain ⟨c, cs, rfl⟩ := List.exists_cons_of_ne_nil whole.nonempty
    rw [List.map_cons, List.cons_append, wholePart]
    · exact all
    · rintro cs same
      simp_all

def fractionText : Option (List Char) → List Char
  | some digits => '.' :: digits
  | none => []

def exponentText : Option Int → List Char
  | some e => 'e' :: (if e < 0 then '-' else '+') :: Nat.toDigits 10 e.natAbs
  | none => []

theorem fractionPart_read {fraction : Option (List Char)}
    (digital : ∀ ds ∈ fraction, ds ≠ [] ∧ AllDigits ds) {rest : Decoded}
    (ends : ∀ c, rest.head? = some (some c) → c.isDigit = false ∧ c ≠ '.') :
    fractionPart ((fractionText fraction).map some ++ rest) = .ok (fraction, rest) := by
  rcases fraction with _ | ds
  · rcases rest with _ | ⟨_ | c, rest⟩
    · rfl
    · rfl
    · have other := ends c rfl
      simp only [fractionText, List.map_nil, List.nil_append]
      rw [fractionPart]
      rintro cs same
      simp_all
  · obtain ⟨nonempty, all⟩ := digital ds rfl
    rw [fractionText, List.map_cons, List.cons_append, fractionPart,
      digits_append nonempty all fun c first => (ends c first).1]
    rfl

theorem exponentPart_read (e : Option Int) :
    Reads exponentPart (exponentText e) e := by
  intro rest ends
  rcases e with _ | e
  · rcases rest with _ | ⟨_ | c, rest⟩
    · rfl
    · rfl
    · have other := ends c rfl
      simp [exponentText, exponentPart, other]
  · have found := digits_append Nat.toDigits_ne_nil (allDigits_toDigits e.natAbs)
      fun c first => (ends c first).1
    have value : Numeral.ofDigits (Nat.toDigits 10 e.natAbs) = e.natAbs :=
      Nat.ofDigitChars_ten_toDigits
    rw [exponentText]
    split
    · next negative =>
      have back : -(e.natAbs : Int) = e := by omega
      simp [exponentPart, exponentSign, found, value, back, Except.map, -Nat.cast_natAbs]
    · next positive =>
      have back : (e.natAbs : Int) = e := by omega
      simp [exponentPart, exponentSign, found, value, back, Except.map]

theorem numberParts_read {whole : List Char} (wellFormed : Whole whole)
    {fraction : Option (List Char)} (digital : ∀ ds ∈ fraction, ds ≠ [] ∧ AllDigits ds)
    (exponent : Option Int) :
    Reads numberParts (whole ++ fractionText fraction ++ exponentText exponent)
      (whole, fraction, exponent) := by
  intro rest ends
  have ends₁ : ∀ c, ((exponentText exponent).map some ++ rest).head? = some (some c) →
      c.isDigit = false ∧ c ≠ '.' := by
    intro c first
    rcases exponent with _ | e
    · exact ⟨(ends c first).1, (ends c first).2.1⟩
    · obtain rfl : 'e' = c := by simpa [exponentText] using first
      decide
  have ends₂ : ∀ c, ((fractionText fraction).map some ++
      ((exponentText exponent).map some ++ rest)).head? = some (some c) → c.isDigit = false := by
    intro c first
    rcases fraction with _ | ds
    · exact (ends₁ c first).1
    · obtain rfl : '.' = c := by simpa [fractionText] using first
      rfl
  rw [List.map_append, List.map_append, List.append_assoc, List.append_assoc, numberParts]
  simp only [wellFormed.read ends₂, fractionPart_read digital ends₁, exponentPart_read exponent rest
    ends, bind, Except.bind, pure, Except.pure]

theorem number_read {whole : List Char} (wellFormed : Whole whole) {fraction : Option (List Char)}
    (digital : ∀ ds ∈ fraction, ds ≠ [] ∧ AllDigits ds) {exponent : Option Int} {negative : Bool}
    {n : JsonNumber} (made : assemble negative whole fraction exponent = .ok n) :
    Reads number ((if negative then ['-'] else []) ++
      (whole ++ fractionText fraction ++ exponentText exponent)) n := by
  intro rest ends
  have parts := numberParts_read wellFormed digital exponent rest ends
  have split : splitMinus (((if negative then ['-'] else []) ++
      (whole ++ fractionText fraction ++ exponentText exponent)).map some ++ rest) =
      (negative, (whole ++ fractionText fraction ++ exponentText exponent).map some ++ rest) := by
    cases negative with
    | true => rfl
    | false =>
      obtain ⟨c, cs, rfl⟩ := List.exists_cons_of_ne_nil wellFormed.nonempty
      have digit := wellFormed.digits c List.mem_cons_self
      simp only [Bool.false_eq_true, if_false, List.nil_append, List.cons_append, List.map_cons]
      rw [splitMinus]
      rintro cs same
      obtain rfl : c = '-' := by simp_all
      exact absurd digit (by decide)
  rw [number, split]
  simp only [parts, made, bind, Except.bind, pure, Except.pure]

theorem ofDigits_append (cs ds : List Char) :
    Numeral.ofDigits (cs ++ ds) = 10 ^ ds.length * Numeral.ofDigits cs + Numeral.ofDigits ds := by
  simp only [Numeral.ofDigits]
  rw [Nat.ofDigitChars_append, Nat.ofDigitChars_eq_ofDigitChars_zero]

theorem ofDigits_replicate (k : Nat) : Numeral.ofDigits (List.replicate k '0') = 0 := by
  simp [Numeral.ofDigits]

theorem ofDigits_toDigits (n : Nat) : Numeral.ofDigits (Nat.toDigits 10 n) = n :=
  Nat.ofDigitChars_ten_toDigits

/-- The parts of a number that is not an integer write a decimal. Zeros may stand behind its digits,
up to the first place behind the point. -/
structure Writes (whole : List Char) (fraction : Option (List Char)) (exponent : Option Int)
    (d : Decimal) : Prop where
  wellFormed : Whole whole
  digital : ∀ ds ∈ fraction, ds ≠ [] ∧ AllDigits ds
  pointed : fraction ≠ none ∨ exponent ≠ none
  shifted : ∃ zeros : Nat, Numeral.ofDigits (whole ++ fraction.getD []) = d.digits * 10 ^ zeros ∧
    exponent.getD 0 - (fraction.getD []).length = d.exponent - zeros ∧
    (zeros = 0 ∨ (Nat.toDigits 10 d.digits).length + zeros = d.point + 1 ∧ d.point ≤ 16)

section Writes

variable {whole : List Char} {fraction : Option (List Char)} {exponent : Option Int} {d : Decimal}

theorem Writes.value (writes : Writes whole fraction exponent d) :
    (Numeral.ofDigits (whole ++ fraction.getD []) : ℚ) *
      10 ^ (exponent.getD 0 - (fraction.getD []).length) = d.digits * 10 ^ d.exponent := by
  obtain ⟨zeros, digits, place, -⟩ := writes.shifted
  rw [digits, place, Nat.cast_mul, Nat.cast_pow, Nat.cast_ofNat, ← zpow_natCast, mul_assoc,
    ← zpow_add₀ (by norm_num), add_sub_cancel]

/-- What is written has no more than `k` digits if the decimal has not and its zeros end in time. -/
theorem Writes.few (writes : Writes whole fraction exponent d) {k : Nat}
    (digits : d.digits ≤ 10 ^ k) (near : d.point ≤ 16 → d.point < k) :
    Numeral.ofDigits (whole ++ fraction.getD []) ≤ 10 ^ k := by
  obtain ⟨zeros, same, -, none | ⟨last, small⟩⟩ := writes.shifted
  · rwa [same, none, Nat.pow_zero, Nat.mul_one]
  · have length : d.digits < 10 ^ (Nat.toDigits 10 d.digits).length :=
      (Nat.length_toDigits_le_iff (by decide) Nat.length_toDigits_pos).1 (Nat.le_refl _)
    have below := near small
    calc Numeral.ofDigits (whole ++ fraction.getD []) = d.digits * 10 ^ zeros := same
      _ ≤ 10 ^ (Nat.toDigits 10 d.digits).length * 10 ^ zeros :=
        Nat.mul_le_mul_right _ (Nat.le_of_lt length)
      _ = 10 ^ ((Nat.toDigits 10 d.digits).length + zeros) := (Nat.pow_add ..).symm
      _ ≤ 10 ^ k := Nat.pow_le_pow_right (by decide) (by omega)

theorem assemble_pointed (pointed : fraction ≠ none ∨ exponent ≠ none) {negative : Bool}
    (finite : (decimal negative whole (fraction.getD []) (exponent.getD 0)).isFinite = true) :
    assemble negative whole fraction exponent =
      .ok (.float (decimal negative whole (fraction.getD []) (exponent.getD 0))) := by
  have integer : (fraction.isNone && exponent.isNone) = false := by
    cases fraction <;> cases exponent <;> simp_all
  rw [assemble, integer]
  simp only [Bool.false_eq_true, if_false, finite, if_true]

theorem Writes.decimal_eq (writes : Writes whole fraction exponent d)
    (seventeen : d.digits ≤ 10 ^ 17) (negative : Bool) :
    decimal negative whole (fraction.getD []) (exponent.getD 0) =
      scaled negative (Numeral.ofDigits (whole ++ fraction.getD []))
        (exponent.getD 0 - (fraction.getD []).length) := by
  have few := writes.few seventeen fun near => by omega
  have fits : (10 : Nat) ^ 17 < UInt64.size := by decide
  exact JsonText.decimal_eq (Nat.lt_of_le_of_lt few fits) _ _

theorem Writes.isFinite_decimal (writes : Writes whole fraction exponent d)
    (seventeen : d.digits ≤ 10 ^ 17)
    (bound : (d.digits : ℚ) * 10 ^ d.exponent ≤ Decimal.greatest) (negative : Bool) :
    (decimal negative whole (fraction.getD []) (exponent.getD 0)).isFinite = true := by
  have few := writes.few seventeen fun near => by omega
  rw [writes.decimal_eq seventeen]
  exact isFinite_scaled negative few (writes.value ▸ bound)

end Writes

private theorem whole_take {n : Nat} (positive : 0 < n) {k : Nat} (nonempty : 0 < k) :
    Whole ((Nat.toDigits 10 n).take k) where
  nonempty := by
    have : 0 < (Nat.toDigits 10 n).length := Nat.length_toDigits_pos
    intro empty
    have := congrArg List.length empty
    rw [List.length_take, List.length_nil] at this
    omega
  digits := (allDigits_toDigits n).take k
  zero first := by
    rw [List.head?_take, if_neg (by omega)] at first
    exact absurd first (head?_toDigits_ne positive)

private theorem exponent_eq (d : Decimal) :
    d.exponent = d.point - (Nat.toDigits 10 d.digits).length := rfl

private theorem writes_leadingZeros {d : Decimal} (before : d.point ≤ 0) :
    Writes ['0'] (some (List.replicate (-d.point).toNat '0' ++ Nat.toDigits 10 d.digits)) none
      d where
  wellFormed := whole_toDigits 0
  digital := by
    rintro ds ⟨⟩
    exact ⟨List.append_ne_nil_of_right_ne_nil _ Nat.toDigits_ne_nil,
      (allDigits_replicate _).append (allDigits_toDigits _)⟩
  pointed := .inl (by simp)
  shifted := by
    have zero : Numeral.ofDigits ['0'] = 0 := rfl
    refine ⟨0, ?_, ?_, .inl rfl⟩
    · rw [Option.getD_some, ofDigits_append, ofDigits_append, ofDigits_replicate,
        ofDigits_toDigits, zero]
      omega
    · rw [exponent_eq, Option.getD_some, Option.getD_none, List.length_append,
        List.length_replicate]
      omega

private theorem writes_trailingZeros {d : Decimal} (positive : 0 < d.digits)
    (beyond : (Nat.toDigits 10 d.digits).length ≤ d.point) (near : d.point ≤ 16) :
    Writes (Nat.toDigits 10 d.digits ++
        List.replicate (d.point - (Nat.toDigits 10 d.digits).length).toNat '0') (some ['0']) none
      d where
  wellFormed := by
    refine ⟨by simp, (allDigits_toDigits _).append (allDigits_replicate _), ?_⟩
    intro zero
    rw [List.head?_append_of_ne_nil _ Nat.toDigits_ne_nil] at zero
    exact absurd zero (head?_toDigits_ne positive)
  digital := by
    rintro ds ⟨⟩
    exact ⟨by simp, allDigits_replicate 1⟩
  pointed := .inl (by simp)
  shifted := by
    have zero : Numeral.ofDigits ['0'] = 0 := rfl
    obtain ⟨k, shift⟩ : ∃ k : Nat, d.point - (Nat.toDigits 10 d.digits).length = k :=
      ⟨(d.point - (Nat.toDigits 10 d.digits).length).toNat, by omega⟩
    refine ⟨k + 1, ?_, ?_, .inr ⟨?_, near⟩⟩
    · rw [shift, Int.toNat_natCast, Option.getD_some, ofDigits_append, ofDigits_append,
        ofDigits_replicate, ofDigits_toDigits, zero, List.length_replicate, List.length_singleton]
      ring
    · rw [exponent_eq, shift, Option.getD_some, Option.getD_none, List.length_singleton]
      push_cast
      ring
    · push_cast
      omega

private theorem writes_pointInside {d : Decimal} (positive : 0 < d.digits) (after : 0 < d.point)
    (within : d.point < (Nat.toDigits 10 d.digits).length) :
    Writes ((Nat.toDigits 10 d.digits).take d.point.toNat)
      (some ((Nat.toDigits 10 d.digits).drop d.point.toNat)) none d where
  wellFormed := whole_take positive (by omega)
  digital := by
    rintro ds ⟨⟩
    refine ⟨?_, (allDigits_toDigits _).drop _⟩
    rw [ne_eq, List.drop_eq_nil_iff]
    omega
  pointed := .inl (by simp)
  shifted := by
    refine ⟨0, ?_, ?_, .inl rfl⟩
    · rw [Option.getD_some, List.take_append_drop, ofDigits_toDigits, Nat.pow_zero, Nat.mul_one]
    · rw [exponent_eq, Option.getD_some, Option.getD_none, List.length_drop]
      omega

private theorem writes_scientific {d : Decimal} (positive : 0 < d.digits) :
    Writes ((Nat.toDigits 10 d.digits).take 1)
      (if (Nat.toDigits 10 d.digits).length ≤ 1 then none
        else some ((Nat.toDigits 10 d.digits).drop 1)) (some (d.point - 1)) d where
  wellFormed := whole_take positive (by decide)
  digital := by
    intro ds mem
    split at mem
    · cases mem
    · next long =>
      obtain rfl := Option.some.inj mem
      refine ⟨?_, (allDigits_toDigits _).drop 1⟩
      rw [ne_eq, List.drop_eq_nil_iff]
      exact long
  pointed := .inr (by simp)
  shifted := by
    have nonempty : 0 < (Nat.toDigits 10 d.digits).length := Nat.length_toDigits_pos
    have rest : (if (Nat.toDigits 10 d.digits).length ≤ 1 then none
        else some ((Nat.toDigits 10 d.digits).drop 1)).getD [] =
        (Nat.toDigits 10 d.digits).drop 1 := by
      split
      · next short =>
        rw [List.drop_eq_nil_of_le short]
        rfl
      · rfl
    rw [rest]
    refine ⟨0, ?_, ?_, .inl rfl⟩
    · rw [List.take_append_drop, ofDigits_toDigits, Nat.pow_zero, Nat.mul_one]
    · rw [exponent_eq, Option.getD_some, List.length_drop]
      omega

theorem writes_positionalText {d : Decimal} (positive : 0 < d.digits) (near : d.point ≤ 16) :
    ∃ whole fraction, (JsonNumber.layout.positionalText d).toList =
      whole ++ fractionText fraction ++ exponentText none ∧ Writes whole fraction none d := by
  rw [Layout.positionalText]
  split
  · next before =>
    refine ⟨_, _, ?_, writes_leadingZeros before⟩
    simp [Layout.zeros, fractionText, exponentText]
  split
  · next beyond =>
    refine ⟨_, _, ?_, writes_trailingZeros positive beyond near⟩
    simp [Layout.zeros, fractionText, exponentText, JsonNumber.layout]
  · next after within =>
    refine ⟨_, _, ?_, writes_pointInside positive (by omega) (by omega)⟩
    simp [fractionText, exponentText]

theorem writes_exponentText {d : Decimal} (positive : 0 < d.digits) :
    ∃ whole fraction exponent, (JsonNumber.layout.exponentText d).toList =
      whole ++ fractionText fraction ++ exponentText (some exponent) ∧
        Writes whole fraction (some exponent) d := by
  refine ⟨_, _, _, ?_, writes_scientific positive⟩
  rw [Layout.exponentText]
  split <;> split <;> simp_all [fractionText, exponentText, JsonNumber.layout, Nat.toList_repr]

end JsonText

/-- What text can hold: integers of 64 bits, with or without sign, and finite words. -/
def JsonNumber.Readable : JsonNumber → Prop
  | .integer n => -2 ^ 63 ≤ n ∧ n < 2 ^ 64
  | .float x => x.isFinite = true

namespace JsonNumber

theorem readable_int64 (n : Int64) : (integer n.toInt).Readable := by
  have low := n.le_toInt
  have high := n.toInt_lt
  exact ⟨by omega, by omega⟩

theorem isFinite_ofInt {n : Int} (readable : (integer n).Readable) :
    (Binary64.ofInt n).isFinite = true := by
  obtain ⟨low, high⟩ := readable
  apply Binary64.isFinite_ofInt
  omega

end JsonNumber

namespace JsonText

theorem reads_integer {n : Int} (readable : (JsonNumber.integer n).Readable) :
    Reads number (integerText n).toList (.integer n) := by
  obtain ⟨low, high⟩ := readable
  have found : integer? (decide (n < 0)) n.natAbs = some n := by
    rw [integer?]
    by_cases negative : n < 0
    · have back : -(n.natAbs : Int) = n := by omega
      have fits : Binary64.fitsInt64 n = true := by
        rw [Binary64.fitsInt64, decide_eq_true_iff]
        exact ⟨low, by rw [Int64.toInt_maxValue]; omega⟩
      have nonzero : n.natAbs ≠ 0 := by omega
      simp only [negative, decide_true, if_true, back, fits, nonzero, not_true, or_self, if_false]
    · have back : (n.natAbs : Int) = n := by omega
      have below : n.natAbs < UInt64.size := by
        rw [UInt64.size]
        omega
      simp only [negative, decide_false, Bool.false_eq_true, if_false, below, if_true, back]
  have made : assemble (decide (n < 0)) (Nat.toDigits 10 n.natAbs) none none =
      .ok (.integer n) := by
    simp only [assemble, Option.isNone_none, Bool.and_self, if_true, ofDigits_toDigits, found]
  have text : (integerText n).toList = (if decide (n < 0) then ['-'] else []) ++
      (Nat.toDigits 10 n.natAbs ++ fractionText none ++ exponentText none) := by
    rw [integerText]
    by_cases negative : n < 0 <;>
      simp [negative, fractionText, exponentText, Nat.toList_repr]
  rw [text]
  exact number_read (whole_toDigits n.natAbs) (fun _ mem => by simp at mem) made

private theorem toList_floatText {x : Binary64} (finite : x.isFinite = true) :
    (JsonNumber.floatText x).toList = (if x.isNegative then ['-'] else []) ++
      (if x.magnitude = 0 then ['0', '.', '0']
        else if JsonNumber.layout.positional (Decimal.shortest .toEven x).point then
          (JsonNumber.layout.positionalText (Decimal.shortest .toEven x)).toList
        else (JsonNumber.layout.exponentText (Decimal.shortest .toEven x)).toList) := by
  have number : x.isNaN = false := by
    have field : x.field ≠ 2047 := by simpa [Binary64.isFinite] using finite
    simp [Binary64.isNaN, field]
  have keeps : JsonNumber.layout.keepsPoint = true := rfl
  have tie : JsonNumber.layout.tie = .toEven := rfl
  rw [JsonNumber.floatText, if_pos finite, Layout.text, number, finite, keeps, tie]
  generalize Decimal.shortest .toEven x = d
  simp only [Bool.false_eq_true, if_false, Bool.not_true, if_true, apply_ite String.toList,
    String.toList_append, apply_ite (HAppend.hAppend _)]
  rfl

private theorem reads_zero {x : Binary64} (finite : x.isFinite = true) (zero : x.magnitude = 0) :
    Reads number (JsonNumber.floatText x).toList (.float x) := by
  have word := x.ofWord_unsignedWord
  rw [Binary64.unsignedWord_of_magnitude zero] at word
  have same : decimal x.isNegative ['0'] ['0'] 0 = x := by
    refine Eq.trans ?_ word
    cases x.isNegative <;> decide +kernel
  have made := @assemble_pointed ['0'] (some ['0']) none (.inl (by simp)) x.isNegative
  simp only [Option.getD_some, Option.getD_none, same] at made
  rw [toList_floatText finite, if_pos zero]
  refine @number_read ['0'] (whole_toDigits 0) (some ['0']) ?_ none _ _ (made finite)
  rintro ds ⟨⟩
  exact ⟨by simp, allDigits_replicate 1⟩

/-- A number that is not zero is written as its shortest decimal, whose digits are scaled when it is
read. -/
private theorem exists_reads_scaled {x : Binary64} (finite : x.isFinite = true)
    (nonzero : 0 < x.significand) :
    ∃ whole fraction exponent, Writes whole fraction exponent (Decimal.shortest .toEven x) ∧
      (scaled x.isNegative (Numeral.ofDigits (whole ++ fraction.getD []))
        (exponent.getD 0 - (fraction.getD []).length)).isFinite = true ∧
      Reads number (JsonNumber.floatText x).toList
        (.float (scaled x.isNegative (Numeral.ofDigits (whole ++ fraction.getD []))
          (exponent.getD 0 - (fraction.getD []).length))) := by
  obtain ⟨digits, seventeen, -⟩ := Decimal.shortest_spec .toEven finite nonzero
  have bound := Decimal.shortest_le_greatest finite nonzero
  obtain ⟨whole, fraction, exponent, text, writes⟩ : ∃ whole fraction exponent,
      (JsonNumber.floatText x).toList = (if x.isNegative then ['-'] else []) ++
        (whole ++ fractionText fraction ++ exponentText exponent) ∧
      Writes whole fraction exponent (Decimal.shortest .toEven x) := by
    have zero : x.magnitude ≠ 0 := by
      rw [Binary64.magnitude, Nat.shiftLeft_eq]
      exact Nat.mul_ne_zero (Nat.pos_iff_ne_zero.1 nonzero) (by positivity)
    rw [toList_floatText finite, if_neg zero]
    by_cases positional : JsonNumber.layout.positional (Decimal.shortest .toEven x).point = true
    · obtain ⟨whole, fraction, text, writes⟩ :=
        writes_positionalText digits (of_decide_eq_true positional).2
      exact ⟨whole, fraction, none, by rw [if_pos positional, text], writes⟩
    · obtain ⟨whole, fraction, exponent, text, writes⟩ := writes_exponentText digits
      exact ⟨whole, fraction, some exponent, by rw [if_neg positional, text], writes⟩
  have same := writes.decimal_eq seventeen x.isNegative
  have finite' := writes.isFinite_decimal seventeen bound x.isNegative
  have reads := number_read writes.wellFormed writes.digital
    (assemble_pointed writes.pointed finite')
  rw [same] at finite' reads
  exact ⟨whole, fraction, exponent, writes, finite', text ▸ reads⟩

private theorem exists_reads_floatText {x : Binary64} (finite : x.isFinite = true) :
    ∃ y : Binary64, y.isFinite = true ∧
      Reads number (JsonNumber.floatText x).toList (.float y) := by
  by_cases zero : x.magnitude = 0
  · exact ⟨x, finite, reads_zero finite zero⟩
  · obtain ⟨whole, fraction, exponent, -, finite', reads⟩ :=
      exists_reads_scaled finite (Binary64.significand_pos_of_magnitude zero)
    exact ⟨_, finite', reads⟩

theorem reads_short {x : Binary64} (finite : x.isFinite = true)
    (fifteen : (Decimal.shortest .toEven x).digits < 10 ^ 15)
    (near : -7 ≤ (Decimal.shortest .toEven x).point ∧ (Decimal.shortest .toEven x).point ≤ 14) :
    Reads number (JsonNumber.floatText x).toList (.float x) := by
  by_cases zero : x.magnitude = 0
  · exact reads_zero finite zero
  · have nonzero := Binary64.significand_pos_of_magnitude zero
    obtain ⟨whole, fraction, exponent, writes, -, reads⟩ := exists_reads_scaled finite nonzero
    have few := writes.few (Nat.le_of_lt fifteen) fun _ => by omega
    obtain ⟨digits, -, -⟩ := Decimal.shortest_spec .toEven finite nonzero
    obtain ⟨zeros, number, place, ends⟩ := writes.shifted
    have positive : 0 < Numeral.ofDigits (whole ++ fraction.getD []) := by
      rw [number]
      exact Nat.mul_pos digits (Nat.pow_pos (by decide))
    have length : (Nat.toDigits 10 (Decimal.shortest .toEven x).digits).length ≤ 15 :=
      (Nat.length_toDigits_le_iff (by decide) (by decide)).2 fifteen
    have placed : -22 ≤ exponent.getD 0 - ((fraction.getD []).length : Int) ∧
        exponent.getD 0 - ((fraction.getD []).length : Int) ≤ 22 := by
      rw [place, exponent_eq]
      omega
    rwa [scaled_eq_ofDecimal x.isNegative positive few placed,
      Decimal.ofDecimal_of_eq_shortest .toEven finite nonzero writes.value] at reads

theorem Reads.readText {α : Type} {reader : Reader α} {text : String} {a : α}
    (reads : Reads reader text.toList a) : readText reader text = .ok a := by
  have found := reads [] fun _ first => nomatch first
  rw [List.append_nil] at found
  rw [JsonText.readText, readAll, Text.ofString, found]
  rfl

end JsonText

namespace Binary64

open JsonText (readText number)

/-- The text of a number gives the same number when it is read. -/
def ReadsBack (x : Binary64) : Prop := readText number (JsonNumber.floatText x) = .ok (.float x)

instance (x : Binary64) : Decidable x.ReadsBack :=
  inferInstanceAs (Decidable (_ = _))

/-- The number that the text of a number is read as. One that is not finite has no text. -/
def reread (x : Binary64) : Binary64 :=
  match readText number (JsonNumber.floatText x) with
  | .ok (.float y) => y
  | _ => x

theorem reread_spec {x : Binary64} (finite : x.isFinite = true) : x.reread.isFinite = true ∧
    JsonText.Reads number (JsonNumber.floatText x).toList (.float x.reread) := by
  obtain ⟨y, finite, reads⟩ := JsonText.exists_reads_floatText finite
  have same : x.reread = y := by rw [reread, reads.readText]
  exact same ▸ ⟨finite, reads⟩

theorem reread_eq_self_iff {x : Binary64} (finite : x.isFinite = true) :
    x.reread = x ↔ x.ReadsBack := by
  rw [ReadsBack, (reread_spec finite).2.readText, Except.ok.injEq, JsonNumber.float.injEq]

/-- The coordinates of a polygon, as they are given to a few decimal places, read back. -/
theorem readsBack_of_short {x : Binary64} (finite : x.isFinite = true)
    (fifteen : (Decimal.shortest .toEven x).digits < 10 ^ 15)
    (near : -7 ≤ (Decimal.shortest .toEven x).point ∧ (Decimal.shortest .toEven x).point ≤ 14) :
    x.ReadsBack :=
  (JsonText.reads_short finite fifteen near).readText

/-- Seventeen digits are more than are exact, and their quotient is rounded to the next word. -/
example : ¬ReadsBack ⟨0x403f3eca06faea82⟩ := by decide +kernel

end Binary64

namespace JsonNumber

def reread : JsonNumber → JsonNumber
  | .integer n => .integer n
  | .float x => .float x.reread

end JsonNumber

namespace JsonText

theorem reads_number {n : JsonNumber} (readable : n.Readable) :
    Reads number n.text.toList n.reread := by
  cases n with
  | integer n => exact reads_integer readable
  | float x => exact (Binary64.reread_spec readable).2

end JsonText

end ImageCatalog
