import ImageCatalog.Proofs.Number.Cells
import ImageCatalog.Proofs.Value.Equality
import Mathlib.Data.Set.Card

/-! Membership in a set of values. Equal values answer for one another unless they differ in the
words of their NaNs, which equality passes over and the digest does not. -/

set_option autoImplicit false

namespace ImageCatalog

namespace Binary64

private theorem unsignedWord_eq_of_le {x y : Binary64} (size : x.magnitude = y.magnitude)
    (le : x.scale ≤ y.scale) : x.unsignedWord = y.unsignedWord := by
  obtain ⟨gap, scale⟩ := Nat.exists_eq_add_of_le le
  have significand : x.significand = y.significand * 2 ^ gap := by
    rw [magnitude, magnitude, scale, Nat.shiftLeft_eq, Nat.shiftLeft_eq, Nat.pow_add,
      Nat.mul_comm (2 ^ x.scale), ← Nat.mul_assoc] at size
    exact Nat.eq_of_mul_eq_mul_right (Nat.two_pow_pos _) size
  cases gap with
  | zero =>
    rw [Nat.pow_zero, Nat.mul_one] at significand
    rw [unsignedWord, unsignedWord, scale, significand, Nat.add_zero]
  | succ gap =>
    -- A significand that is doubled would have more bits than a word has room for.
    have normal : y.field ≠ 0 := by
      intro subnormal
      rw [Binary64.scale, Binary64.scale, subnormal] at scale
      omega
    have hidden := hiddenBit_le_significand normal
    have small := x.significand_lt
    have positive := Nat.two_pow_pos gap
    have doubled : y.significand * 2 ≤ x.significand := by
      rw [significand, Nat.pow_succ, ← Nat.mul_assoc]
      exact Nat.mul_le_mul_right 2 (Nat.le_mul_of_pos_right _ positive)
    rw [hiddenBit] at hidden
    omega

theorem unsignedWord_eq_of_magnitude_eq {x y : Binary64} (size : x.magnitude = y.magnitude) :
    x.unsignedWord = y.unsignedWord := by
  rcases Nat.le_total x.scale y.scale with le | le
  · exact unsignedWord_eq_of_le size le
  · exact (unsignedWord_eq_of_le size.symm le).symm

theorem eq_of_units_eq {x y : Binary64} (same : x.units = y.units) (nonzero : x.units ≠ 0) :
    x = y := by
  have size : x.magnitude = y.magnitude := by
    rw [← natAbs_units x, ← natAbs_units y, same]
  have sign : x.isNegative = y.isNegative := by
    rw [units, units] at same
    rw [units] at nonzero
    cases negative : x.isNegative <;> cases negative' : y.isNegative <;>
      simp only [negative, negative', if_true, if_false, Bool.false_eq_true] at same nonzero ⊢ <;>
      omega
  rw [← ofWord_unsignedWord x, ← ofWord_unsignedWord y, sign,
    unsignedWord_eq_of_magnitude_eq size]

end Binary64

namespace Value

mutual

def nans : Value → List Binary64
  | .float x => if x.isNaN then [x] else []
  | .list items => nansOfItems items
  | _ => []

def nansOfItems : List Value → List Binary64
  | [] => []
  | item :: items => item.nans ++ nansOfItems items

end

private theorem digest_float (x : Binary64) :
    (Value.float x).digest = match x.integer? with
      | some n => [.int n]
      | none => [.float x.bits] := rfl

private theorem digest_float_of_numEq {x y : Binary64} (number : x.isNaN = false)
    (number' : y.isNaN = false) (same : x.units = y.units) :
    (Value.float x).digest = (Value.float y).digest := by
  have integers : x.integer? = y.integer? := by
    ext n
    rw [Binary64.integer?_eq_some_iff, Binary64.integer?_eq_some_iff, number, number', same]
  rw [digest_float, digest_float, ← integers]
  cases denotes : x.integer? with
  | some n => rfl
  | none =>
    have nonzero : x.units ≠ 0 := by
      intro zero
      have integral : x.integer? = some 0 :=
        Binary64.integer?_eq_some_iff.2 ⟨number, by simpa using zero⟩
      rw [denotes] at integral
      cases integral
    rw [Binary64.eq_of_units_eq same nonzero]

private theorem digest_float_of_nan {x : Binary64} (nan : x.isNaN = true) :
    (Value.float x).digest = [.float x.bits] := by
  have fraction : x.integer? = none := by
    rw [Option.eq_none_iff_forall_ne_some]
    intro n denotes
    rw [(Binary64.integer?_eq_some_iff.1 denotes).1] at nan
    cases nan
  rw [digest_float, fraction]

/-- Two pairs of lists, equal in length, of which one pair is equal iff the other is. -/
private structure Parallel {β γ : Type} (as bs : List β) (cs ds : List γ) : Prop where
  first : as.length = bs.length
  second : cs.length = ds.length
  iff : as = bs ↔ cs = ds

private theorem Parallel.refl {β γ : Type} (as : List β) (cs : List γ) : Parallel as as cs cs :=
  ⟨rfl, rfl, Iff.intro (fun _ => rfl) fun _ => rfl⟩

private theorem Parallel.append {β γ : Type} {as bs as' bs' : List β} {cs ds cs' ds' : List γ}
    (front : Parallel as bs cs ds) (rest : Parallel as' bs' cs' ds') :
    Parallel (as ++ as') (bs ++ bs') (cs ++ cs') (ds ++ ds') := by
  refine ⟨by simp [front.first, rest.first], by simp [front.second, rest.second], ?_, ?_⟩
  · intro same
    obtain ⟨left, right⟩ := List.append_inj same front.first
    rw [front.iff.1 left, rest.iff.1 right]
  · intro same
    obtain ⟨left, right⟩ := List.append_inj same front.second
    rw [front.iff.2 left, rest.iff.2 right]

private theorem Parallel.symm {β γ : Type} {as bs : List β} {cs ds : List γ}
    (parallel : Parallel as bs cs ds) : Parallel bs as ds cs :=
  ⟨parallel.first.symm, parallel.second.symm, by rw [eq_comm, parallel.iff, eq_comm]⟩

private theorem parallel_floats {x y : Binary64}
    (same : (Value.float x).denote = (Value.float y).denote) :
    Parallel (Value.float x).digest (Value.float y).digest (Value.float x).nans
      (Value.float y).nans := by
  rw [denote, denote] at same
  rw [nans, nans]
  cases nan : x.isNaN <;> cases nan' : y.isNaN <;>
    simp only [nan, nan', if_true, if_false, Bool.false_eq_true, Denotation.number.injEq,
      reduceCtorEq] at same ⊢
  · rw [digest_float_of_numEq nan nan' same]
    exact .refl _ _
  · rw [digest_float_of_nan nan, digest_float_of_nan nan']
    obtain ⟨bits⟩ := x
    obtain ⟨bits'⟩ := y
    exact ⟨rfl, rfl, by simp⟩

private theorem parallel_float {a : Value} {y : Binary64}
    (same : a.denote = (Value.float y).denote) :
    Parallel a.digest (Value.float y).digest a.nans (Value.float y).nans := by
  cases a with
  | float x => exact parallel_floats same
  | int n =>
    rw [denote, denote] at same
    split at same
    · cases same
    · next number =>
      rw [Bool.not_eq_true] at number
      injection same with units
      have denotes : y.integer? = some n :=
        Binary64.integer?_eq_some_iff.2 ⟨number, units.symm⟩
      have none : (Value.float y).nans = [] := by rw [nans, if_neg (by simp [number])]
      rw [digest_float, denotes, none]
      exact .refl [DigestWord.int n] []
  | _ =>
    rw [denote, denote] at same
    split at same <;> cases same

private theorem length_denoteItems (vs : List Value) : (denoteItems vs).length = vs.length := by
  induction vs with
  | nil => rfl
  | cons v vs ih => rw [denoteItems, List.length_cons, List.length_cons, ih]

mutual

private theorem parallel_of_denote : ∀ a b : Value, a.denote = b.denote →
    Parallel a.digest b.digest a.nans b.nans
  | a, .float y, same => parallel_float same
  | .float x, b, same => (parallel_float same.symm).symm
  | .int m, .int n, same => by
    have alike := (equal_iff_denote (.int m) (.int n)).2 same
    rw [equal, beq_iff_eq] at alike
    subst alike
    exact .refl _ _
  | .list as, .list bs, same => by
    rw [denote, denote, Denotation.list.injEq] at same
    have lengths : as.length = bs.length := by
      rw [← length_denoteItems as, same, length_denoteItems]
    have items := (Parallel.refl [DigestWord.list bs.length] []).append
      (parallel_of_denoteItems as bs same)
    rw [digest, digest, lengths]
    exact items
  | .null, .null, same => .refl _ _
  | .boolean a, .boolean b, same => by
    cases same
    exact .refl _ _
  | .string a, .string b, same => by
    cases same
    exact .refl _ _
  | .json a, .json b, same => by
    cases same
    exact .refl _ _

private theorem parallel_of_denoteItems : ∀ as bs : List Value, denoteItems as = denoteItems bs →
    Parallel (digestItems as) (digestItems bs) (nansOfItems as) (nansOfItems bs)
  | [], [], _ => .refl _ _
  | [], _ :: _, same => by cases same
  | _ :: _, [], same => by cases same
  | a :: as, b :: bs, same => by
    rw [denoteItems, denoteItems, List.cons.injEq] at same
    exact (parallel_of_denote a b same.1).append (parallel_of_denoteItems as bs same.2)

end

/-- A value answers for another one iff it equals that one and has the same NaNs in it. -/
theorem answersFor_iff_nans {a b : Value} :
    a.answersFor b = true ↔ (a == b) = true ∧ a.nans = b.nans := by
  rw [answersFor_iff, beq_iff_denote, and_comm, and_congr_right_iff]
  exact fun same => (parallel_of_denote a b same).iff

theorem nans_eq_of_beq {a b : Value} {nan : Binary64} (same : (a == b) = true)
    (uniform : ∀ x ∈ a.nans, x = nan) (uniform' : ∀ x ∈ b.nans, x = nan) : a.nans = b.nans := by
  have length := (parallel_of_denote a b (beq_iff_denote.1 same)).second
  rw [List.eq_replicate_of_mem uniform, List.eq_replicate_of_mem uniform', length]

theorem answersFor_eq_beq {a b : Value} {nan : Binary64} (uniform : ∀ x ∈ a.nans, x = nan)
    (uniform' : ∀ x ∈ b.nans, x = nan) : a.answersFor b = (a == b) := by
  rw [Bool.eq_iff_iff, answersFor_iff_nans, and_iff_left_iff_imp]
  exact fun same => nans_eq_of_beq same uniform uniform'

theorem beq_comm (a b : Value) : (a == b) = (b == a) := by
  rw [Bool.eq_iff_iff, beq_iff_denote, beq_iff_denote, eq_comm]

def equalTo (v : Value) : Set Value := {w | (w == v) = true}

def alikeTo (v : Value) : Set Value := {w | (w == v) = true ∧ w.nans = v.nans}

theorem equalTo_eq_iff {a b : Value} : a.equalTo = b.equalTo ↔ (a == b) = true := by
  constructor
  · intro same
    have inside : a ∈ a.equalTo := beq_iff_denote.2 rfl
    rw [same] at inside
    exact inside
  · intro same
    ext v
    rw [equalTo, equalTo, Set.mem_ofPred_eq, Set.mem_ofPred_eq, beq_iff_denote, beq_iff_denote,
      beq_iff_denote.1 same]

theorem alikeTo_eq_iff {a b : Value} : a.alikeTo = b.alikeTo ↔ a.answersFor b = true := by
  constructor
  · intro same
    have inside : a ∈ a.alikeTo := ⟨beq_iff_denote.2 rfl, rfl⟩
    rw [same] at inside
    exact answersFor_iff_nans.2 inside
  · intro answers
    ext v
    change (v == a) = true ∧ v.nans = a.nans ↔ (v == b) = true ∧ v.nans = b.nans
    rw [← answersFor_iff_nans, ← answersFor_iff_nans, answersFor_comm, answersFor_comm v,
      answersFor_congr answers]

private theorem distinctFrom_spec {stored : List Value}
    (apart : stored.Pairwise fun a b => a.answersFor b = false) (vs : List Value) :
    (distinctFrom stored vs).Pairwise (fun a b => a.answersFor b = false) ∧
      ∀ v ∈ distinctFrom stored vs, v ∈ stored ∨ v ∈ vs := by
  induction vs generalizing stored with
  | nil => exact ⟨apart, fun v mem => Or.inl mem⟩
  | cons v vs ih =>
    rw [distinctFrom]
    split
    · obtain ⟨pairs, members⟩ := ih apart
      exact ⟨pairs, fun w mem => (members w mem).imp_right (List.mem_cons_of_mem v)⟩
    · next missing =>
      have fresh : ∀ w ∈ stored, w.answersFor v = false := by
        intro w mem
        rw [Bool.eq_false_iff]
        exact fun answers => missing (foundIn_iff.2 ⟨w, mem, answers⟩)
      obtain ⟨pairs, members⟩ := @ih (stored ++ [v])
        (List.pairwise_append.2 ⟨apart, List.pairwise_singleton _ v, by simpa using fresh⟩)
      refine ⟨pairs, fun w mem => ?_⟩
      rcases members w mem with old | new
      · rcases List.mem_append.1 old with old | here
        · exact Or.inl old
        · rw [List.mem_singleton] at here
          exact Or.inr (here ▸ List.mem_cons_self)
      · exact Or.inr (List.mem_cons_of_mem v new)

theorem pairwise_distinct (vs : List Value) :
    (distinct vs).Pairwise fun a b => a.answersFor b = false :=
  (distinctFrom_spec List.Pairwise.nil vs).1

theorem mem_of_mem_distinct {v : Value} {vs : List Value} (mem : v ∈ distinct vs) : v ∈ vs := by
  have among := (distinctFrom_spec List.Pairwise.nil vs).2 v mem
  simpa using among

theorem image_distinct {γ : Type} {classOf : Value → γ} {vs : List Value}
    (agrees : ∀ a ∈ vs, ∀ b ∈ vs, a.answersFor b = true → classOf a = classOf b) :
    classOf '' {v | v ∈ distinct vs} = classOf '' {v | v ∈ vs} := by
  ext c
  constructor
  · rintro ⟨w, stored, rfl⟩
    exact ⟨w, mem_of_mem_distinct stored, rfl⟩
  · rintro ⟨v, listed, rfl⟩
    have found : v.foundIn (distinct vs) = true := by
      rw [foundIn_distinct]
      exact foundIn_iff.2 ⟨v, listed, answersFor_self v⟩
    obtain ⟨w, stored, answers⟩ := foundIn_iff.1 found
    exact ⟨w, stored, agrees w (mem_of_mem_distinct stored) v listed answers⟩

/-- As many values are stored as there are classes among those listed, if the values of a class are
those that answer for one another. -/
theorem ncard_image_eq_length_distinct {γ : Type} {classOf : Value → γ} {vs : List Value}
    (agrees : ∀ a ∈ vs, ∀ b ∈ vs, classOf a = classOf b ↔ a.answersFor b = true) :
    (classOf '' {v | v ∈ vs}).ncard = (distinct vs).length := by
  classical
  have classes : classOf '' {v | v ∈ vs} = ((distinct vs).map classOf).toFinset := by
    rw [← image_distinct fun a listed b listed' => (agrees a listed b listed').2, List.coe_toFinset]
    ext c
    exact List.mem_map.symm
  have apart : ((distinct vs).map classOf).Nodup := by
    rw [List.Nodup, List.pairwise_map]
    refine (pairwise_distinct vs).imp_of_mem fun {a b} stored stored' answers same => ?_
    rw [(agrees a (mem_of_mem_distinct stored) b (mem_of_mem_distinct stored')).1 same] at answers
    cases answers
  rw [classes, Set.ncard_coe_finset, List.toFinset_card_of_nodup apart, List.length_map]

end Value

namespace ValueSet

theorem contains_iff {vs : List Value} {v : Value} :
    (ofList vs).contains v = true ↔ ∃ w ∈ vs, (w == v) = true ∧ w.nans = v.nans := by
  rw [contains_ofList, Value.foundIn_iff]
  simp only [Value.answersFor_iff_nans]

theorem contains_iff_alikeTo_mem {vs : List Value} {v : Value} :
    (ofList vs).contains v = true ↔ v.alikeTo ∈ Value.alikeTo '' {w | w ∈ vs} := by
  rw [contains_ofList, Value.foundIn_iff]
  simp only [Set.mem_image, Set.mem_ofPred_eq, Value.alikeTo_eq_iff]

theorem size_eq_ncard_alikeTo (vs : List Value) :
    (ofList vs).size = (Value.alikeTo '' {v | v ∈ vs}).ncard :=
  (Value.ncard_image_eq_length_distinct fun _ _ _ _ => Value.alikeTo_eq_iff).symm

theorem size_eq_ncard_equalTo {vs : List Value} {nan : Binary64}
    (uniform : ∀ v ∈ vs, ∀ x ∈ v.nans, x = nan) :
    (ofList vs).size = (Value.equalTo '' {v | v ∈ vs}).ncard := by
  refine (Value.ncard_image_eq_length_distinct fun a listed b listed' => ?_).symm
  rw [Value.equalTo_eq_iff, Value.answersFor_eq_beq (uniform a listed) (uniform b listed')]

theorem beq_ofList_iff {vs ws : List Value} :
    (ofList vs == ofList ws) = true ↔
      (∀ v ∈ vs, (ofList ws).contains v = true) ∧ ∀ w ∈ ws, (ofList vs).contains w = true := by
  have within : ∀ us us' : List Value, (∀ u ∈ us, (ofList us').contains u = true) ↔
      Value.alikeTo '' {u | u ∈ us} ⊆ Value.alikeTo '' {u | u ∈ us'} := by
    intro us us'
    simp only [contains_iff_alikeTo_mem, Set.image_subset_iff]
    rfl
  have parts : (ofList vs == ofList ws) = true ↔ (ofList vs).size = (ofList ws).size ∧
      ∀ v ∈ Value.distinct vs, (ofList ws).contains v = true := by
    change ((ofList vs).size == (ofList ws).size && (Value.distinct vs).all _) = true ↔ _
    rw [Bool.and_eq_true, beq_iff_eq, List.all_eq_true]
  have stored : Value.alikeTo '' {v | v ∈ Value.distinct vs} = Value.alikeTo '' {v | v ∈ vs} :=
    Value.image_distinct fun _ _ _ _ => Value.alikeTo_eq_iff.2
  have finite : ∀ us : List Value, (Value.alikeTo '' {u | u ∈ us}).Finite := fun us =>
    us.finite_toSet.image Value.alikeTo
  rw [parts, size_eq_ncard_alikeTo, size_eq_ncard_alikeTo, within (Value.distinct vs) ws, stored,
    within vs ws, within ws vs]
  constructor
  · rintro ⟨sizes, inside⟩
    have same := Set.eq_of_subset_of_ncard_le inside (Nat.le_of_eq sizes.symm) (finite ws)
    exact ⟨inside, same.ge⟩
  · rintro ⟨inside, inside'⟩
    rw [Set.Subset.antisymm inside inside']
    exact ⟨rfl, Set.Subset.refl _⟩

end ValueSet

end ImageCatalog
