import ImageCatalog.Catalog.Annotation
import ImageCatalog.Proofs.Query.Evaluation
import ImageCatalog.Proofs.Value.Membership

set_option autoImplicit false

namespace ImageCatalog

namespace Outcome

/-- Outcomes that are the same but for the leaf that a fault names. -/
inductive Agree : Outcome → Outcome → Prop
  | ok (b : Bool) : Agree (.ok b) (.ok b)
  | error (id : RecordId) (leaf leaf' : String) (cause : Fault) :
      Agree (.error (.evaluation id leaf cause)) (.error (.evaluation id leaf' cause))

theorem any_ok {β : Type} (condition : β → Bool) (xs : List β) :
    any (fun x => .ok (condition x)) xs = .ok (xs.any condition) := by
  induction xs with
  | nil => rfl
  | cons x xs ih => rw [any, ih, List.any_cons]; cases condition x <;> rfl

end Outcome

namespace Predicate

variable {α : Type} [Record α] {access : Access} {r : α}

theorem eval_isIn {value : Value} (resolved : access.resolve r = .ok value) (set : ValueSet) :
    eval r (.member access .isIn set) = .ok (set.contains value) := by
  rw [eval, resolved]
  rfl

theorem eval_eq {value : Value} (resolved : access.resolve r = .ok value) (w : Value) :
    eval r (.compare access .eq w) = .ok (value == w) := by
  rw [eval, resolved]
  rfl

/-- Membership and the disjunction of equalities have one value, if it is by equality that the set
contains the value of the field. Without that value both fail, except that an empty disjunction
does not look for it. -/
theorem agree_isIn_any {vs : List Value}
    (byEquality : ∀ value, access.resolve r = .ok value →
      ((ValueSet.ofList vs).contains value = true ↔ ∃ w ∈ vs, (w == value) = true))
    (looked : vs = [] → ∃ value, access.resolve r = .ok value) :
    Outcome.Agree (eval r (.member access .isIn (.ofList vs)))
      (Outcome.any (fun w => eval r (.compare access .eq w)) vs) := by
  cases resolved : access.resolve r with
  | ok value =>
    have disjunction : vs.any (fun w => value == w) = (ValueSet.ofList vs).contains value := by
      rw [Bool.eq_iff_iff, byEquality value resolved, List.any_eq_true]
      simp only [Value.beq_comm value]
    simp only [eval_isIn resolved, eval_eq resolved, Outcome.any_ok, disjunction]
    exact .ok _
  | error cause =>
    cases vs with
    | nil =>
      obtain ⟨value, found⟩ := looked rfl
      rw [resolved] at found
      cases found
    | cons w ws =>
      rw [Outcome.any, eval, eval, resolved]
      exact .error _ _ _ _

end Predicate

namespace ValueSet

/-- What a set is for values whose NaNs are all one word: the listed values up to equality. -/
structure ReadsAsEquality (vs : List Value) (nan : Binary64) : Prop where
  contains : ∀ v : Value, (∀ x ∈ v.nans, x = nan) →
    ((ofList vs).contains v = true ↔ ∃ w ∈ vs, (w == v) = true)
  size : (ofList vs).size = (Value.equalTo '' {v | v ∈ vs}).ncard
  eval : ∀ {α : Type} [Record α] (access : Access) (r : α),
    (∀ value, access.resolve r = .ok value → ∀ x ∈ value.nans, x = nan) →
    (vs = [] → ∃ value, access.resolve r = .ok value) →
    Outcome.Agree (Predicate.eval r (.member access .isIn (.ofList vs)))
      (Outcome.any (fun w => Predicate.eval r (.compare access .eq w)) vs)

theorem contains_iff_of_uniform {vs : List Value} {nan : Binary64}
    (uniform : ∀ v ∈ vs, ∀ x ∈ v.nans, x = nan) {v : Value} (uniform' : ∀ x ∈ v.nans, x = nan) :
    (ofList vs).contains v = true ↔ ∃ w ∈ vs, (w == v) = true := by
  rw [contains_iff]
  constructor
  · rintro ⟨w, listed, same, -⟩
    exact ⟨w, listed, same⟩
  · rintro ⟨w, listed, same⟩
    exact ⟨w, listed, same, Value.nans_eq_of_beq same (uniform w listed) uniform'⟩

/-- A set contains what equals a listed value and has the same NaNs in it, holds one value of each
such class, and equals another set iff each contains the other's values. Where all NaNs are one
word, equality alone decides. -/
theorem decided_by_equality (vs : List Value) :
    (∀ v, (ofList vs).contains v = true ↔ ∃ w ∈ vs, (w == v) = true ∧ w.nans = v.nans) ∧
      (ofList vs).size = (Value.alikeTo '' {v | v ∈ vs}).ncard ∧
      (∀ ws, (ofList vs == ofList ws) = true ↔
        (∀ v ∈ vs, (ofList ws).contains v = true) ∧ ∀ w ∈ ws, (ofList vs).contains w = true) ∧
      ∀ nan, (∀ v ∈ vs, ∀ x ∈ v.nans, x = nan) → ReadsAsEquality vs nan := by
  refine ⟨fun v => contains_iff, size_eq_ncard_alikeTo vs, fun ws => beq_ofList_iff, ?_⟩
  intro nan uniform
  have byEquality : ∀ v : Value, (∀ x ∈ v.nans, x = nan) →
      ((ofList vs).contains v = true ↔ ∃ w ∈ vs, (w == v) = true) :=
    fun v uniform' => contains_iff_of_uniform uniform uniform'
  refine ⟨byEquality, size_eq_ncard_equalTo uniform, ?_⟩
  intro α _ access r uniform' looked
  apply Predicate.agree_isIn_any _ looked
  intro value resolved
  exact byEquality value (uniform' value resolved)

def unmeasured : Annotation where
  id := 1
  imageId := 1
  categoryId := 1
  box := ⟨.zero, .zero, .zero, .zero⟩
  area := some (.quietNaN true)

/-- The area equals the NaN without a sign, but a set that holds that one does not contain it. -/
theorem unmeasured_not_contained :
    Predicate.eval unmeasured
        (.compare (.ofField "area") .eq (.float (.quietNaN false))) = .ok true ∧
      Predicate.eval unmeasured
        (.member (.ofField "area") .isIn (.ofList [.float (.quietNaN false)])) = .ok false ∧
      (ofList [.float (.quietNaN false), .float (.quietNaN true)]).size = 2 := by
  decide

end ValueSet

end ImageCatalog
