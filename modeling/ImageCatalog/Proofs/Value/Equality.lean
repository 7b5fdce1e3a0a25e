import ImageCatalog.Proofs.Number.Integers
import ImageCatalog.Value.Digest

set_option autoImplicit false

namespace ImageCatalog

/-- What a value stands for: numbers by their units, whichever way they are written. -/
inductive Denotation where
  | null
  | boolean (b : Bool)
  | number (units : Int)
  | nan
  | string (s : String)
  | list (items : List Denotation)
  | json (payload : String)

namespace Value

mutual

def denote : Value → Denotation
  | .null => .null
  | .boolean b => .boolean b
  | .int n => .number (n.toInt * Binary64.unitsPerOne)
  | .float x => if x.isNaN then .nan else .number x.units
  | .string s => .string s
  | .list items => .list (denoteItems items)
  | .json payload => .json payload

def denoteItems : List Value → List Denotation
  | [] => []
  | item :: items => item.denote :: denoteItems items

end

theorem denote_float (x : Binary64) :
    (Value.float x).denote = if x.isNaN then .nan else .number x.units := rfl

private theorem units_int_inj {m n : Int64} :
    m.toInt * (Binary64.unitsPerOne : Int) = n.toInt * Binary64.unitsPerOne ↔ m = n := by
  have nonzero : (Binary64.unitsPerOne : Int) ≠ 0 := by
    have := Binary64.unitsPerOne_pos
    omega
  rw [Int.mul_eq_mul_right_iff nonzero, Int64.toInt_inj]

private theorem integer?_beq_iff {n : Int64} {x : Binary64} :
    (x.integer? == some n) = true ↔ (Value.float x).denote = (Value.int n).denote := by
  rw [beq_iff_eq, Binary64.integer?_eq_some_iff, denote_float, denote]
  cases x.isNaN <;> simp

private theorem floats_iff {x y : Binary64} :
    ((x.isNaN && y.isNaN) || x.numEq y) = true ↔
      (Value.float x).denote = (Value.float y).denote := by
  rw [Bool.or_eq_true, Binary64.numEq_iff, denote_float, denote_float]
  cases x.isNaN <;> cases y.isNaN <;> simp

private theorem denote_float_ne {x : Binary64} {d : Denotation} (nan : d ≠ .nan)
    (number : ∀ units, d ≠ .number units) : (Value.float x).denote ≠ d := by
  rw [denote_float]
  split
  · exact nan.symm
  · exact (number x.units).symm

private theorem equal_float_iff {a : Value} (other : a.number? = none) (x : Binary64) :
    a.equal (.float x) = true ↔ a.denote = (Value.float x).denote := by
  cases a with
  | int n => simp [number?] at other
  | float y => simp [number?] at other
  | _ => simpa [equal, denote] using (denote_float_ne (by simp) (by simp)).symm

mutual

theorem equal_iff_denote : ∀ a b : Value, a.equal b = true ↔ a.denote = b.denote
  | .null, b => by
    cases b with
    | float y => exact equal_float_iff rfl y
    | _ => simp [equal, denote]
  | .boolean a, b => by
    cases b with
    | float y => exact equal_float_iff rfl y
    | _ => simp [equal, denote]
  | .int m, b => by
    cases b with
    | int n => rw [equal, beq_iff_eq, denote, denote, Denotation.number.injEq, units_int_inj]
    | float y => rw [equal, integer?_beq_iff, eq_comm]
    | _ => simp [equal, denote]
  | .float x, b => by
    cases b with
    | int n => rw [equal, integer?_beq_iff]
    | float y => rw [equal, floats_iff]
    | _ => simpa [equal] using denote_float_ne (by simp [denote]) (by simp [denote])
  | .string a, b => by
    cases b with
    | float y => exact equal_float_iff rfl y
    | _ => simp [equal, denote]
  | .list as, b => by
    cases b with
    | list bs =>
      rw [equal, equalLists_iff_denote as bs, denote, denote, Denotation.list.injEq]
    | float y => exact equal_float_iff rfl y
    | _ => simp [equal, denote]
  | .json a, b => by
    cases b with
    | float y => exact equal_float_iff rfl y
    | _ => simp [equal, denote]

theorem equalLists_iff_denote : ∀ as bs : List Value,
    equalLists as bs = true ↔ denoteItems as = denoteItems bs
  | [], [] => by simp [equalLists, denoteItems]
  | [], b :: bs => by simp [equalLists, denoteItems]
  | a :: as, [] => by simp [equalLists, denoteItems]
  | a :: as, b :: bs => by
    rw [equalLists, Bool.and_eq_true, equal_iff_denote a b, equalLists_iff_denote as bs,
      denoteItems, denoteItems, List.cons.injEq]

end

theorem beq_iff_denote {a b : Value} : (a == b) = true ↔ a.denote = b.denote :=
  equal_iff_denote a b

theorem answersFor_iff {a b : Value} :
    a.answersFor b = true ↔ a.digest = b.digest ∧ a.denote = b.denote := by
  rw [answersFor, Bool.and_eq_true, beq_iff_eq, beq_iff_denote]

theorem answersFor_self (a : Value) : a.answersFor a = true :=
  answersFor_iff.2 ⟨rfl, rfl⟩

theorem answersFor_comm (a b : Value) : a.answersFor b = b.answersFor a := by
  rw [Bool.eq_iff_iff, answersFor_iff, answersFor_iff, eq_comm (a := a.digest),
    eq_comm (a := a.denote)]

theorem answersFor_congr {a b : Value} (same : a.answersFor b = true) (v : Value) :
    a.answersFor v = b.answersFor v := by
  obtain ⟨digest, denotation⟩ := answersFor_iff.1 same
  rw [Bool.eq_iff_iff, answersFor_iff, answersFor_iff, digest, denotation]

theorem foundIn_iff {v : Value} {stored : List Value} :
    v.foundIn stored = true ↔ ∃ w ∈ stored, w.answersFor v = true := by
  rw [foundIn, List.any_eq_true]

/-- A value that is skipped is found already, so nothing that it answers for is lost. -/
private theorem foundIn_distinctFrom (v : Value) (stored vs : List Value) :
    v.foundIn (distinctFrom stored vs) = (v.foundIn stored || v.foundIn vs) := by
  induction vs generalizing stored with
  | nil => simp [distinctFrom, foundIn]
  | cons w vs ih =>
    rw [distinctFrom]
    split
    · next found =>
      obtain ⟨u, member, answers⟩ := foundIn_iff.1 found
      rw [ih, Bool.eq_iff_iff]
      simp only [foundIn, List.any_cons, Bool.or_eq_true]
      constructor
      · rintro (old | new)
        · exact Or.inl old
        · exact Or.inr (Or.inr new)
      · rintro (old | same | new)
        · exact Or.inl old
        · exact Or.inl (foundIn_iff.2 ⟨u, member, answersFor_congr answers v ▸ same⟩)
        · exact Or.inr new
    · rw [ih]
      simp [foundIn, Bool.or_assoc]

@[simp] theorem foundIn_distinct (v : Value) (vs : List Value) :
    v.foundIn (distinct vs) = v.foundIn vs := by
  rw [distinct, foundIn_distinctFrom]
  simp [foundIn]

end Value

namespace ValueSet

@[simp] theorem contains_ofList (vs : List Value) (v : Value) :
    (ofList vs).contains v = v.foundIn vs := Value.foundIn_distinct v vs

end ValueSet

end ImageCatalog
