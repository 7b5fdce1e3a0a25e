import ImageCatalog.Catalog.Annotation
import ImageCatalog.Proofs.Query.Evaluation
import ImageCatalog.Proofs.Value.Membership

/-! Operators that need an order. Such an operator is refused by the types of the two values alone,
while their order is looked for in the items of lists, to any depth. So a leaf reads the order of
its values, or is refused, unless it comes to items whose types have no order. -/

set_option autoImplicit false

namespace ImageCatalog

open Record (idOf)

namespace Value

mutual

/-- Comparing `a` with `b` comes to comparing `x` with `y`: the values themselves, or items at one
place of two lists, where all items before that place are equal in order. -/
inductive Meets : Value → Value → Value → Value → Prop
  | here (a b : Value) : Meets a b a b
  | inside {as bs : List Value} {x y : Value} :
      MeetsItems as bs x y → Meets (.list as) (.list bs) x y

inductive MeetsItems : List Value → List Value → Value → Value → Prop
  | first {a b x y : Value} (as bs : List Value) :
      Meets a b x y → MeetsItems (a :: as) (b :: bs) x y
  | rest {a b x y : Value} {as bs : List Value} :
      a.order? b = some .eq → MeetsItems as bs x y → MeetsItems (a :: as) (b :: bs) x y

end

/-- The types of any two values that the comparison comes to have an order between them. -/
def Orderable (a b : Value) : Prop := ∀ x y, Meets a b x y → x.comparable y = true

def OrderableItems (as bs : List Value) : Prop :=
  ∀ x y, MeetsItems as bs x y → x.comparable y = true

theorem Orderable.comparable {a b : Value} (orderable : Orderable a b) : a.comparable b = true :=
  orderable a b (.here a b)

theorem orderable_list_iff {as bs : List Value} :
    Orderable (.list as) (.list bs) ↔ OrderableItems as bs := by
  constructor
  · exact fun orderable x y met => orderable x y (.inside met)
  · intro orderable x y met
    cases met with
    | here => rfl
    | inside met => exact orderable x y met

theorem orderable_iff_comparable {a b : Value} (single : a.list? = none ∨ b.list? = none) :
    Orderable a b ↔ a.comparable b = true := by
  refine ⟨Orderable.comparable, fun comparable x y met => ?_⟩
  cases met with
  | here => exact comparable
  | inside => simp [list?] at single

private theorem orderableItems_nil_left (bs : List Value) : OrderableItems [] bs :=
  fun _ _ met => nomatch met

private theorem orderableItems_nil_right (as : List Value) : OrderableItems as [] :=
  fun _ _ met => nomatch met

theorem orderableItems_cons_iff {a b : Value} {as bs : List Value} :
    OrderableItems (a :: as) (b :: bs) ↔
      Orderable a b ∧ (a.order? b = some .eq → OrderableItems as bs) := by
  constructor
  · intro orderable
    exact ⟨fun x y met => orderable x y (.first as bs met),
      fun same x y met => orderable x y (.rest same met)⟩
  · rintro ⟨front, back⟩ x y met
    cases met with
    | first _ _ met => exact front x y met
    | rest same met => exact back same x y met

private theorem isSome_orderLists?_cons {a b : Value} {as bs : List Value} :
    (orderLists? (a :: as) (b :: bs)).isSome = true ↔
      (a.order? b).isSome = true ∧
        (a.order? b = some .eq → (orderLists? as bs).isSome = true) := by
  rw [orderLists?]
  cases a.order? b with
  | none => simp
  | some o => cases o <;> simp

private theorem nans_float_eq_nil_iff {x : Binary64} :
    (Value.float x).nans = [] ↔ x.isNaN = false := by
  rw [nans]
  cases x.isNaN <;> simp

private theorem isSome_order?_of_single {a b : Value} (single : a.list? = none ∨ b.list? = none)
    (proper : a.nans = []) (proper' : b.nans = []) : (a.order? b).isSome = a.comparable b := by
  cases a with
  | int m =>
    cases b with
    | float y =>
      rw [nans_float_eq_nil_iff] at proper'
      rw [order?, Binary64.orderOfInt?_eq, proper']
      rfl
    | _ => rfl
  | float x =>
    rw [nans_float_eq_nil_iff] at proper
    cases b with
    | int n =>
      rw [order?, Binary64.orderOfInt?_eq, proper]
      rfl
    | float y =>
      rw [nans_float_eq_nil_iff] at proper'
      rw [order?, Binary64.order?, proper, proper']
      rfl
    | _ => rfl
  | list as =>
    cases b with
    | list bs => simp [list?] at single
    | _ => rfl
  | _ => cases b <;> rfl

mutual

theorem isSome_order?_iff (a b : Value) (proper : a.nans = []) (proper' : b.nans = []) :
    (a.order? b).isSome = true ↔ Orderable a b := by
  -- Only two lists have anything inside that is compared.
  cases a with
  | list as =>
    cases b with
    | list bs =>
      rw [order?, orderable_list_iff]
      exact isSome_orderLists?_iff as bs proper proper'
    | _ => rw [isSome_order?_of_single (Or.inr rfl) proper proper',
        orderable_iff_comparable (Or.inr rfl)]
  | _ => rw [isSome_order?_of_single (Or.inl rfl) proper proper',
      orderable_iff_comparable (Or.inl rfl)]

theorem isSome_orderLists?_iff (as bs : List Value) (proper : nansOfItems as = [])
    (proper' : nansOfItems bs = []) :
    (orderLists? as bs).isSome = true ↔ OrderableItems as bs := by
  cases as with
  | nil => cases bs <;> simp [orderLists?, orderableItems_nil_left]
  | cons a as =>
    cases bs with
    | nil => simp [orderLists?, orderableItems_nil_right]
    | cons b bs =>
      rw [nansOfItems, List.append_eq_nil_iff] at proper proper'
      rw [isSome_orderLists?_cons, orderableItems_cons_iff, isSome_order?_iff a b proper.1 proper'.1,
        isSome_orderLists?_iff as bs proper.2 proper'.2]

end

end Value

namespace Predicate

section Leaf

variable {α : Type} [Record α]

structure OrderedLeaf (r : α) (access : Access) (op : Comparison) (value operand : Value) :
    Prop where
  refused : value.comparable operand = false →
    eval r (.compare access op operand) = .error (.evaluation (idOf r)
      (compareText access op operand)
      (.typeMismatch access.label operand.dataType? value.dataType?))
  ordered : value.Orderable operand → ∃ o, value.order? operand = some o ∧
    eval r (.compare access op operand) = .ok (op.holds o)
  unordered : value.comparable operand = true → ¬value.Orderable operand →
    value.order? operand = none ∧ eval r (.compare access op operand) = .ok false

variable {r : α} {access : Access} {op : Comparison} {value operand : Value}

private theorem eval_ordering (ordering : op.isOrdering = true)
    (resolved : access.resolve r = .ok value) :
    eval r (.compare access op operand) = atLeaf r (compareText access op operand)
      (if value.comparable operand then .ok ((value.order? operand).any op.holds)
        else .error (.typeMismatch access.label operand.dataType? value.dataType?)) := by
  rw [eval, resolved]
  cases op with
  | eq => cases ordering
  | ne => cases ordering
  | _ => rfl

theorem orderedLeaf (ordering : op.isOrdering = true) (resolved : access.resolve r = .ok value)
    (proper : value.nans = []) (proper' : operand.nans = []) :
    OrderedLeaf r access op value operand := by
  have defined := Value.isSome_order?_iff value operand proper proper'
  have leaf := @eval_ordering α _ r access op value operand ordering resolved
  constructor
  · intro incomparable
    rw [leaf, incomparable]
    rfl
  · intro orderable
    obtain ⟨o, order⟩ := Option.isSome_iff_exists.1 (defined.2 orderable)
    refine ⟨o, order, ?_⟩
    rw [leaf, orderable.comparable, order]
    rfl
  · intro comparable unorderable
    have none : value.order? operand = none :=
      Option.not_isSome_iff_eq_none.1 (mt defined.1 unorderable)
    refine ⟨none, ?_⟩
    rw [leaf, comparable, none]
    rfl

end Leaf

/-- Values without NaNs have an order iff the types of all that their comparison comes to have one;
a leaf is then the order read by its operator. It fails where the types of the two values have no
order between them, but not where only those of items have none. -/
theorem order_of_values (a b : Value) (proper : a.nans = []) (proper' : b.nans = []) :
    ((a.order? b).isSome = true ↔ a.Orderable b) ∧
      ∀ {α : Type} [Record α] (r : α) (access : Access) (op : Comparison),
        op.isOrdering = true → access.resolve r = .ok a → OrderedLeaf r access op a b :=
  ⟨Value.isSome_order?_iff a b proper proper',
    fun _ _ _ ordering resolved => orderedLeaf ordering resolved proper proper'⟩

def boxed : Annotation where
  id := 1
  imageId := 1
  categoryId := 1
  box := ⟨.zero, .zero, .zero, .zero⟩

def boxValue : Value := .list (boxed.box.toList.map Value.float)

/-- The box is a list of numbers, so it is less than a list that starts with a greater one. -/
theorem boxed_ordered :
    (boxValue.order? (.list [.int 1])).isSome = true ∧
      boxValue.Orderable (.list [.int 1]) ∧
      OrderedLeaf boxed (.ofField "bbox") .lt boxValue (.list [.int 1]) :=
  have spec := order_of_values boxValue (.list [.int 1]) (by decide) (by decide)
  have order : (boxValue.order? (.list [.int 1])).isSome = true := by decide +kernel
  ⟨order, spec.1.1 order, spec.2 boxed (.ofField "bbox") .lt rfl rfl⟩

/-- Comparing the box with a list of texts comes to a number and a text, which have no order. Yet
the leaf does not fail. -/
theorem boxed_not_refused :
    boxValue.nans = [] ∧ (Value.list [.string "x"]).nans = [] ∧
      boxValue.comparable (.list [.string "x"]) = true ∧
      boxValue.order? (.list [.string "x"]) = none ∧
      (Access.ofField "bbox").resolve boxed = .ok boxValue ∧
      eval boxed (.compare (.ofField "bbox") .lt (.list [.string "x"])) = .ok false :=
  ⟨by decide, rfl, rfl, rfl, rfl, by decide⟩

end Predicate

end ImageCatalog
