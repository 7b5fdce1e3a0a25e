import ImageCatalog.Proofs.Query.Running

/-! The faults of predicates. Every fault stems from one leaf: the first one that fails, from the
left, among the leaves that no false conjunct and no true disjunct before them cuts off. It is
wrapped once, at the leaf, however deep the leaf stands. -/

set_option autoImplicit false

namespace ImageCatalog

open Record (idOf field?)

variable {α : Type} [Record α]

namespace Access

inductive FailsOn (r : α) (a : Access) : Fault → Prop
  | fieldNotFound : field? r a.field = none →
      FailsOn r a (.fieldNotFound (Record.kind α) a.field)
  | notIndexable {index : Nat} {value : Value} : a.index = some index →
      field? r a.field = some value → value.list? = none →
      FailsOn r a (.notIndexable a.field value.dataType?)
  | indexOutOfBounds {index : Nat} {items : List Value} : a.index = some index →
      field? r a.field = some (.list items) → items.length ≤ index →
      FailsOn r a (.indexOutOfBounds a.field index items.length)

variable {r : α} {a : Access}

theorem FailsOn.resolve {cause : Fault} (fails : a.FailsOn r cause) :
    a.resolve r = .error cause := by
  rw [Access.resolve, Record.fieldValue]
  cases fails with
  | fieldNotFound missing => rw [missing]
  | @notIndexable index value place found single =>
    rw [found, place]
    cases value <;> first | rfl | cases single
  | indexOutOfBounds place found past =>
    rw [found, place]
    simp only [List.getElem?_eq_none past]

theorem resolves_or_fails (r : α) (a : Access) :
    (∃ v, a.resolve r = .ok v) ∨ ∃ cause, a.FailsOn r cause := by
  cases found : field? r a.field with
  | none => exact Or.inr ⟨_, .fieldNotFound found⟩
  | some v =>
    cases place : a.index with
    | none => exact Or.inl ⟨v, by rw [resolve, Record.fieldValue, found, place]⟩
    | some index =>
      cases v with
      | list items =>
        rcases Nat.lt_or_ge index items.length with inside | past
        · refine Or.inl ⟨items[index], ?_⟩
          rw [resolve, Record.fieldValue, found, place]
          simp only [List.getElem?_eq_getElem inside]
        · exact Or.inr ⟨_, .indexOutOfBounds place found past⟩
      | _ => exact Or.inr ⟨_, .notIndexable place found rfl⟩

theorem resolve_eq_error_iff {cause : Fault} :
    a.resolve r = .error cause ↔ a.FailsOn r cause := by
  refine ⟨fun result => ?_, FailsOn.resolve⟩
  rcases resolves_or_fails r a with ⟨v, resolved⟩ | ⟨other, fails⟩
  · rw [resolved] at result
    cases result
  · rw [fails.resolve] at result
    cases result
    exact fails

end Access

theorem Comparison.apply_eq_error_iff {op : Comparison} {label : String} {value operand : Value}
    {cause : Fault} :
    op.apply label value operand = .error cause ↔ op.isOrdering = true ∧
      value.comparable operand = false ∧
      cause = .typeMismatch label operand.dataType? value.dataType? := by
  have refused : (if value.comparable operand then .ok ((value.order? operand).any op.holds)
      else .error (.typeMismatch label operand.dataType? value.dataType?)) =
        (.error cause : Except Fault Bool) ↔ value.comparable operand = false ∧
          cause = .typeMismatch label operand.dataType? value.dataType? := by
    cases value.comparable operand <;> simp [eq_comm]
  cases op with
  | eq => simp [apply, isOrdering]
  | ne => simp [apply, isOrdering]
  | _ => exact refused.trans (by simp [isOrdering])

inductive Leaf where
  | compare (access : Access) (op : Comparison) (operand : Value)
  | member (access : Access) (op : Membership) (set : ValueSet)

namespace Leaf

def predicate : Leaf → Predicate
  | .compare access op operand => .compare access op operand
  | .member access op set => .member access op set

def access : Leaf → Access
  | .compare access _ _ => access
  | .member access _ _ => access

def text : Leaf → String
  | .compare access op operand => Predicate.compareText access op operand
  | .member access op set => Predicate.memberText access op set

inductive FailsOn (r : α) : Leaf → Fault → Prop
  | access {leaf : Leaf} {cause : Fault} : leaf.access.FailsOn r cause → FailsOn r leaf cause
  | typeMismatch {access : Access} {op : Comparison} {operand value : Value} :
      access.resolve r = .ok value → op.isOrdering = true → value.comparable operand = false →
      FailsOn r (.compare access op operand)
        (.typeMismatch access.label operand.dataType? value.dataType?)

def Fails (r : α) (leaf : Leaf) : Prop := ∃ cause, leaf.FailsOn r cause

theorem FailsOn.ne_evaluation {r : α} {leaf : Leaf} {cause : Fault} (fails : FailsOn r leaf cause)
    (record : RecordId) (text : String) (inner : Fault) :
    cause ≠ .evaluation record text inner := by
  rintro rfl
  cases fails with
  | access fails => cases fails

theorem render_predicate (leaf : Leaf) : leaf.predicate.render = leaf.text := by
  cases leaf <;> simp [predicate, Predicate.render, Predicate.pieces, Predicate.Piece.text, text,
    String.join]

def test : Leaf → Value → Outcome
  | .compare access op operand, value => op.apply access.label value operand
  | .member _ op set, value => .ok (op.holds (set.contains value))

def outcome (r : α) (leaf : Leaf) : Outcome := (leaf.access.resolve r).bind leaf.test

theorem outcome_eq_error_iff {r : α} {leaf : Leaf} {cause : Fault} :
    leaf.outcome r = .error cause ↔ leaf.FailsOn r cause := by
  rw [outcome]
  constructor
  · intro result
    cases resolved : leaf.access.resolve r with
    | error other =>
      rw [resolved] at result
      cases result
      exact .access (Access.resolve_eq_error_iff.1 resolved)
    | ok value =>
      rw [resolved] at result
      cases leaf with
      | compare access op operand =>
        obtain ⟨ordering, unordered, rfl⟩ := Comparison.apply_eq_error_iff.1 result
        exact .typeMismatch resolved ordering unordered
      | member access op set => cases result
  · intro fails
    cases fails with
    | access fails =>
      rw [fails.resolve]
      rfl
    | typeMismatch resolved ordering unordered =>
      rw [access, resolved]
      exact Comparison.apply_eq_error_iff.2 ⟨ordering, unordered, rfl⟩

theorem eval_predicate (r : α) (leaf : Leaf) :
    leaf.predicate.eval r = Predicate.atLeaf r leaf.text (leaf.outcome r) := by
  cases leaf with
  | compare access op operand => rfl
  | member access op set =>
    rw [predicate, Predicate.eval, outcome, Leaf.access]
    cases access.resolve r <;> rfl

def fault? (r : α) (leaf : Leaf) : Option Fault := Fault.of? (leaf.predicate.eval r)

theorem fault?_eq_some_iff {r : α} {leaf : Leaf} {fault : Fault} :
    leaf.fault? r = some fault ↔ ∃ cause, leaf.FailsOn r cause ∧
      fault = .evaluation (idOf r) leaf.predicate.render cause := by
  simp only [← outcome_eq_error_iff, render_predicate, fault?, eval_predicate]
  cases leaf.outcome r <;> simp [Predicate.atLeaf, Fault.of?, eq_comm]

theorem fault?_eq_none_iff {r : α} {leaf : Leaf} :
    leaf.fault? r = none ↔ ¬leaf.Fails r := by
  simp only [Fails, ← outcome_eq_error_iff, fault?, eval_predicate]
  cases leaf.outcome r <;> simp [Predicate.atLeaf, Fault.of?]

end Leaf

def Outcome.decides (o : Outcome) (b : Bool) : Bool :=
  match o with
  | .ok value => value == b
  | .error _ => false

namespace Predicate

mutual

def leaves : Predicate → List Leaf
  | .const _ => []
  | .compare access op operand => [.compare access op operand]
  | .member access op set => [.member access op set]
  | .all ps => leavesOf ps
  | .any ps => leavesOf ps

def leavesOf : List Predicate → List Leaf
  | [] => []
  | p :: ps => p.leaves ++ leavesOf ps

end

mutual

/-- The leaves of a predicate, from the left, without those that a false conjunct or a true disjunct
before them cuts off. -/
def uncut (r : α) : Predicate → List Leaf
  | .const _ => []
  | .compare access op operand => [.compare access op operand]
  | .member access op set => [.member access op set]
  | .all ps => uncutOf r false ps
  | .any ps => uncutOf r true ps

def uncutOf (r : α) (decisive : Bool) : List Predicate → List Leaf
  | [] => []
  | p :: ps =>
    p.uncut r ++ if Outcome.decides (p.eval r) decisive then [] else uncutOf r decisive ps

end

variable (r : α)

mutual

theorem uncut_sublist (p : Predicate) : (p.uncut r).Sublist p.leaves := by
  cases p with
  | const b => exact List.Sublist.refl _
  | compare access op operand => exact List.Sublist.refl _
  | member access op set => exact List.Sublist.refl _
  | all ps => exact uncutOf_sublist false ps
  | any ps => exact uncutOf_sublist true ps

theorem uncutOf_sublist (decisive : Bool) (ps : List Predicate) :
    (uncutOf r decisive ps).Sublist (leavesOf ps) := by
  cases ps with
  | nil => exact List.Sublist.refl _
  | cons p ps =>
    rw [uncutOf, leavesOf]
    refine (uncut_sublist p).append ?_
    split
    · exact List.nil_sublist _
    · exact uncutOf_sublist decisive ps

end

mutual

/-- The fault of a predicate is that of the first leaf that fails of those not cut off. A conjunct
or disjunct that fails cuts nothing off, but it has such a leaf itself. -/
theorem of?_eval (p : Predicate) :
    Fault.of? (p.eval r) = (p.uncut r).findSome? (Leaf.fault? r) := by
  cases p with
  | const b => rfl
  | compare access op operand => exact (List.findSome?_singleton ..).symm
  | member access op set => exact (List.findSome?_singleton ..).symm
  | all ps => exact of?_evalAll ps
  | any ps => exact of?_evalAny ps

theorem of?_evalAll (ps : List Predicate) :
    Fault.of? (evalAll r ps) = (uncutOf r false ps).findSome? (Leaf.fault? r) := by
  cases ps with
  | nil => rfl
  | cons p ps =>
    rw [evalAll, uncutOf, List.findSome?_append, ← of?_eval p]
    rcases p.eval r with fault | _ | _
    · simp [Outcome.decides, Fault.of?]
    · simp [Outcome.decides, Fault.of?]
    · simpa [Outcome.decides, Fault.of?] using of?_evalAll ps

theorem of?_evalAny (ps : List Predicate) :
    Fault.of? (evalAny r ps) = (uncutOf r true ps).findSome? (Leaf.fault? r) := by
  cases ps with
  | nil => rfl
  | cons p ps =>
    rw [evalAny, uncutOf, List.findSome?_append, ← of?_eval p]
    rcases p.eval r with fault | _ | _
    · simp [Outcome.decides, Fault.of?]
    · simpa [Outcome.decides, Fault.of?] using of?_evalAny ps
    · simp [Outcome.decides, Fault.of?]

end

/-- Where evaluation fails. It does iff some leaf that is not cut off fails; the fault names the
record, the text of the first such leaf and what is wrong with that leaf, which is never a wrapped
fault. If no leaf of the predicate fails, there is a value. -/
theorem eval_fails_at_leaf (p : Predicate) :
    (∀ fault, p.eval r = .error fault ↔ ∃ before leaf after cause,
        p.uncut r = before ++ leaf :: after ∧ (∀ other ∈ before, ¬other.Fails r) ∧
          leaf.FailsOn r cause ∧ fault = .evaluation (idOf r) leaf.predicate.render cause) ∧
      (p.uncut r).Sublist p.leaves ∧
      (∀ (leaf : Leaf) (cause : Fault), leaf.FailsOn r cause →
        ∀ record text inner, cause ≠ .evaluation record text inner) ∧
      ((∀ leaf ∈ p.leaves, ¬leaf.Fails r) → ∃ b, p.eval r = .ok b) := by
  refine ⟨fun fault => ?_, uncut_sublist r p, fun _ _ fails => fails.ne_evaluation, fun sound => ?_⟩
  · rw [← Fault.of?_eq_some_iff, of?_eval, List.findSome?_eq_some_iff]
    simp only [Leaf.fault?_eq_some_iff, Leaf.fault?_eq_none_iff]
    constructor
    · rintro ⟨before, leaf, after, split, ⟨cause, fails, same⟩, sound⟩
      exact ⟨before, leaf, after, cause, split, sound, fails, same⟩
    · rintro ⟨before, leaf, after, cause, split, sound, fails, same⟩
      exact ⟨before, leaf, after, split, ⟨cause, fails, same⟩, sound⟩
  · rw [← Fault.of?_eq_none_iff, of?_eval, List.findSome?_eq_none_iff]
    exact fun leaf mem => Leaf.fault?_eq_none_iff.2 (sound leaf ((uncut_sublist r p).subset mem))

/-- The name is another one, so the missing width is cut off; the missing height is not, and the
disjunct after it, which would fail too, comes later. -/
theorem eval_nested :
    let image : Image := { id := 2, fileName := "b.png" }
    let name : Leaf := .compare (.ofField "file_name") .eq (.string "a.png")
    let height : Leaf := .compare (.ofField "height") .ge (.int 5)
    let digit : Leaf := .compare (.item "license" 0) .eq (.int 4)
    let p : Predicate := .any [.all [name.predicate, .compare (.ofField "width") .ge (.int 5)],
      .any [height.predicate, digit.predicate]]
    p.uncut image = [name, height, digit] ∧
      p.eval image =
        .error (.evaluation 2 "entity.height >= 5" (.typeMismatch "height" (some .int) none)) := by
  intro image name height digit p
  have first : ¬name.Fails image := Leaf.fault?_eq_none_iff.1 rfl
  have missing : (Access.ofField "height").resolve image = .ok .null := rfl
  have fails : height.FailsOn image (.typeMismatch "height" (some .int) none) :=
    .typeMismatch missing rfl rfl
  exact ⟨rfl, ((eval_fails_at_leaf image p).1 _).2 ⟨[name], height, [digit], _, rfl, by simpa, fails,
    rfl⟩⟩

end Predicate

end ImageCatalog
