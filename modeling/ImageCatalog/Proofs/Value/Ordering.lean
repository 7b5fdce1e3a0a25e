import ImageCatalog.Proofs.Value.Equality

/-! The order of values is an order of what they denote: numbers by their units, lists item by
item. So it reverses, chains and respects equality, as far as it is defined. -/

set_option autoImplicit false

namespace ImageCatalog

namespace Denotation

mutual

def order? : Denotation → Denotation → Option Ordering
  | .number m, .number n => some (compare m n)
  | .string s, .string t => some (compare s t)
  | .boolean a, .boolean b => some (compare a.toNat b.toNat)
  | .list as, .list bs => orderItems? as bs
  | _, _ => none

def orderItems? : List Denotation → List Denotation → Option Ordering
  | [], [] => some .eq
  | [], _ :: _ => some .lt
  | _ :: _, [] => some .gt
  | a :: as, b :: bs =>
    match a.order? b with
    | some .eq => orderItems? as bs
    | other => other

end

mutual

theorem order?_swap : ∀ a b : Denotation, b.order? a = (a.order? b).map Ordering.swap
  | .number m, b => by
    cases b with
    | number n => exact congrArg some Std.OrientedOrd.eq_swap
    | _ => rfl
  | .string s, b => by
    cases b with
    | string t => exact congrArg some Std.OrientedOrd.eq_swap
    | _ => rfl
  | .boolean a, b => by
    cases b with
    | boolean b => exact congrArg some Std.OrientedOrd.eq_swap
    | _ => rfl
  | .list as, b => by
    cases b with
    | list bs => exact orderItems?_swap as bs
    | _ => rfl
  | .null, b => by cases b <;> rfl
  | .nan, b => by cases b <;> rfl
  | .json _, b => by cases b <;> rfl

theorem orderItems?_swap : ∀ as bs : List Denotation,
    orderItems? bs as = (orderItems? as bs).map Ordering.swap
  | [], [] => rfl
  | [], _ :: _ => rfl
  | _ :: _, [] => rfl
  | a :: as, b :: bs => by
    rw [orderItems?, orderItems?, order?_swap a b]
    cases a.order? b with
    | none => rfl
    | some o =>
      cases o with
      | eq => exact orderItems?_swap as bs
      | _ => rfl

end

mutual

theorem eq_of_order?_eq : ∀ {a b : Denotation}, a.order? b = some .eq → a = b
  | .number _, .number _, same => by
    rw [order?] at same
    rw [Std.LawfulEqOrd.eq_of_compare (Option.some.inj same)]
  | .string _, .string _, same => by
    rw [order?] at same
    rw [Std.LawfulEqOrd.eq_of_compare (Option.some.inj same)]
  | .boolean a, .boolean b, same => by
    rw [order?] at same
    have bits := Std.LawfulEqOrd.eq_of_compare (Option.some.inj same)
    cases a <;> cases b <;> first | rfl | cases bits
  | .list as, .list bs, same => by
    rw [order?] at same
    rw [eq_of_orderItems?_eq same]

theorem eq_of_orderItems?_eq : ∀ {as bs : List Denotation},
    orderItems? as bs = some .eq → as = bs
  | [], [], _ => rfl
  | a :: as, b :: bs, same => by
    rw [orderItems?] at same
    split at same
    · next first => rw [eq_of_order?_eq first, eq_of_orderItems?_eq same]
    · next differ => exact absurd same differ

end

private theorem orderItems?_eq_lt_iff {a b : Denotation} {as bs : List Denotation} :
    orderItems? (a :: as) (b :: bs) = some .lt ↔
      a.order? b = some .lt ∨ a.order? b = some .eq ∧ orderItems? as bs = some .lt := by
  rw [orderItems?]
  cases a.order? b with
  | none => simp
  | some o => cases o <;> simp

mutual

theorem order?_lt_trans : ∀ {a b c : Denotation}, a.order? b = some .lt → b.order? c = some .lt →
    a.order? c = some .lt
  | .number _, .number _, .number _, below, above => by
    rw [order?] at below above ⊢
    rw [Std.TransCmp.lt_trans (Option.some.inj below) (Option.some.inj above)]
  | .string _, .string _, .string _, below, above => by
    rw [order?] at below above ⊢
    rw [Std.TransCmp.lt_trans (Option.some.inj below) (Option.some.inj above)]
  | .boolean _, .boolean _, .boolean _, below, above => by
    rw [order?] at below above ⊢
    rw [Std.TransCmp.lt_trans (Option.some.inj below) (Option.some.inj above)]
  | .list as, .list bs, .list cs, below, above => by
    rw [order?] at below above ⊢
    exact orderItems?_lt_trans below above

theorem orderItems?_lt_trans : ∀ {as bs cs : List Denotation}, orderItems? as bs = some .lt →
    orderItems? bs cs = some .lt → orderItems? as cs = some .lt
  | [], _ :: _, _ :: _, _, _ => rfl
  | a :: as, b :: bs, c :: cs, below, above => by
    rw [orderItems?_eq_lt_iff] at below above ⊢
    rcases below with below | ⟨same, below⟩
    · rcases above with above | ⟨same, above⟩
      · exact Or.inl (order?_lt_trans below above)
      · rw [eq_of_order?_eq same] at below
        exact Or.inl below
    · rw [eq_of_order?_eq same]
      rcases above with above | ⟨same', above⟩
      · exact Or.inl above
      · exact Or.inr ⟨same', orderItems?_lt_trans below above⟩

end

theorem order?_self (a : Denotation) : a.order? a = some .eq ∨ a.order? a = none := by
  have swapped := order?_swap a a
  cases order : a.order? a with
  | none => exact Or.inr rfl
  | some o =>
    rw [order] at swapped
    cases o with
    | eq => exact Or.inl rfl
    | _ => cases swapped

end Denotation

namespace Value

private theorem order?_int (m : Int64) (b : Value) :
    (Value.int m).order? b = (Value.int m).denote.order? b.denote := by
  cases b with
  | int n => exact congrArg some (Binary64.compare_mul_units m.toInt n.toInt).symm
  | float y =>
    rw [order?, Binary64.orderOfInt?_eq, denote, denote]
    split <;> rfl
  | _ => rfl

private theorem order?_float (x : Binary64) (b : Value) :
    (Value.float x).order? b = (Value.float x).denote.order? b.denote := by
  cases b with
  | int n =>
    rw [order?, Binary64.orderOfInt?_eq, denote, denote]
    split
    · rfl
    · exact congrArg some Std.OrientedOrd.eq_swap.symm
  | float y =>
    rw [order?, Binary64.order?, denote, denote]
    cases x.isNaN <;> cases y.isNaN <;> rfl
  | _ =>
    rw [denote_float]
    split <;> rfl

private theorem order?_float_of_other {a : Value} (other : a.number? = none) (y : Binary64) :
    a.order? (.float y) = a.denote.order? (Value.float y).denote := by
  rw [denote_float]
  cases a with
  | int n => cases other
  | float x => cases other
  | _ => split <;> rfl

private theorem order?_other {a : Value} (other : a.number? = none) (single : a.list? = none)
    (b : Value) : a.order? b = a.denote.order? b.denote := by
  cases b with
  | float y => exact order?_float_of_other other y
  | _ =>
    cases a with
    | int m => cases other
    | float x => cases other
    | list as => cases single
    | _ => rfl

mutual

theorem order?_eq_denote : ∀ a b : Value, a.order? b = a.denote.order? b.denote
  | .int m, b => order?_int m b
  | .float x, b => order?_float x b
  | .list as, b => by
    cases b with
    | list bs => exact orderLists?_eq_denote as bs
    | float y => exact order?_float_of_other rfl y
    | _ => rfl
  | .string _, b => order?_other rfl rfl b
  | .boolean _, b => order?_other rfl rfl b
  | .null, b => order?_other rfl rfl b
  | .json _, b => order?_other rfl rfl b

theorem orderLists?_eq_denote : ∀ as bs : List Value,
    orderLists? as bs = Denotation.orderItems? (denoteItems as) (denoteItems bs)
  | [], [] => rfl
  | [], _ :: _ => rfl
  | _ :: _, [] => rfl
  | a :: as, b :: bs => by
    have rest := orderLists?_eq_denote as bs
    rw [orderLists?, denoteItems, denoteItems, Denotation.orderItems?, order?_eq_denote a b]
    cases a.denote.order? b.denote with
    | none => rfl
    | some o =>
      cases o with
      | eq => exact rest
      | _ => rfl

end

structure Coherent (a b c : Value) : Prop where
  refl : (a == a) = true
  symm : (a == b) = true → (b == a) = true
  trans : (a == b) = true → (b == c) = true → (a == c) = true
  reversed : b.order? a = (a.order? b).map Ordering.swap
  chained : ∀ o o', a.order? b = some o → b.order? c = some o' → o ≠ .gt → o' ≠ .gt →
    a.order? c = some (if o = .eq ∧ o' = .eq then .eq else .lt)
  equal_of_order : a.order? b = some .eq → (a == b) = true
  order_of_equal : (a == b) = true → a.order? b = some .eq ∨ a.order? b = none
  replaced : (a == b) = true → a.order? c = b.order? c

private theorem denote_eq_of_order?_eq {a b : Value} (same : a.order? b = some .eq) :
    a.denote = b.denote :=
  Denotation.eq_of_order?_eq (order?_eq_denote a b ▸ same)

theorem order?_chained {a b c : Value} {o o' : Ordering} (first : a.order? b = some o)
    (second : b.order? c = some o') (low : o ≠ .gt) (low' : o' ≠ .gt) :
    a.order? c = some (if o = .eq ∧ o' = .eq then .eq else .lt) := by
  cases o with
  | gt => exact absurd rfl low
  | eq =>
    -- Equal values stand in the same order to a third one.
    rw [order?_eq_denote, denote_eq_of_order?_eq first, ← order?_eq_denote, second]
    cases o' with
    | gt => exact absurd rfl low'
    | _ => rfl
  | lt =>
    cases o' with
    | gt => exact absurd rfl low'
    | eq =>
      rw [order?_eq_denote, ← denote_eq_of_order?_eq second, ← order?_eq_denote, first]
      rfl
    | lt =>
      rw [order?_eq_denote] at first second ⊢
      exact Denotation.order?_lt_trans first second

/-- Equality is an equivalence, and the order is one of the classes: it is reversed with its sides,
chains, is equal only for equal values, and does not tell equal values apart. -/
theorem coherent (a b c : Value) : Coherent a b c where
  refl := beq_iff_denote.2 rfl
  symm same := beq_iff_denote.2 (beq_iff_denote.1 same).symm
  trans same same' := beq_iff_denote.2 ((beq_iff_denote.1 same).trans (beq_iff_denote.1 same'))
  reversed := by
    rw [order?_eq_denote, order?_eq_denote]
    exact Denotation.order?_swap a.denote b.denote
  chained _ _ first second low low' := order?_chained first second low low'
  equal_of_order same := beq_iff_denote.2 (denote_eq_of_order?_eq same)
  order_of_equal same := by
    rw [order?_eq_denote, beq_iff_denote.1 same]
    exact Denotation.order?_self b.denote
  replaced same := by
    rw [order?_eq_denote, beq_iff_denote.1 same, ← order?_eq_denote]

end Value

end ImageCatalog
