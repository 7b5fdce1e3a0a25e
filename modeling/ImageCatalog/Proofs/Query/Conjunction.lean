import ImageCatalog.Proofs.Query.Items
import ImageCatalog.Proofs.Query.Running

/-! Conjunction is filtering in turn. One pass over the records and two passes meet faults in another
order, and the second of two never sees what the first one drops; yet they succeed on the same
tables, with the same records. -/

set_option autoImplicit false

namespace ImageCatalog

namespace Outcome

theorem holds_both (first second : Outcome) :
    (both first second).holds = (second.holds && first.holds) := by
  rcases first with fault | _ | _ <;> simp [both, holds]

theorem both_isOk_iff {first second : Outcome} :
    (∃ b, both first second = .ok b) ↔
      (∃ b, first = .ok b) ∧ (first.holds = true → ∃ b, second = .ok b) := by
  rcases first with fault | _ | _ <;> simp [both, holds]

end Outcome

namespace Query

/-- Running a query comes to running two others in turn, the second on what the first leaves. -/
def RunsAs (α : Type) [Record α] (q first second : Query) : Prop :=
  ∀ t kept : Table α, q.run t = .ok kept ↔
    ∃ between, first.run t = .ok between ∧ second.run between = .ok kept

section

variable {α : Type} [Record α]

theorem runsAs_of_both {q first second : Query}
    (placed : Placed q.items ↔ Placed first.items ∧ Placed second.items)
    (value : ∀ r : α, q.evaluate r = Outcome.both (first.evaluate r) (second.evaluate r)) :
    RunsAs α q first second := by
  intro t kept
  have survivors : (t.only first.holds).only second.holds = t.only q.holds := by
    rw [Table.only_only]
    refine Table.only_congr fun r _ => ?_
    rw [holds, holds, holds, value, Outcome.holds_both]
  have total : (∀ r ∈ t.records, ∃ b, q.evaluate r = .ok b) ↔
      (∀ r ∈ t.records, ∃ b, first.evaluate r = .ok b) ∧
        ∀ r ∈ (t.only first.holds).records, ∃ b, second.evaluate r = .ok b := by
    simp only [value, Outcome.both_isOk_iff, Table.mem_only, and_imp, holds, forall₂_and]
  simp only [run_eq_ok_iff, misplaced?_eq_none_iff]
  rw [placed, total]
  constructor
  · rintro ⟨⟨placed₁, placed₂⟩, ⟨total₁, total₂⟩, rfl⟩
    exact ⟨_, ⟨placed₁, total₁, rfl⟩, placed₂, total₂, survivors.symm⟩
  · rintro ⟨_, ⟨placed₁, total₁, rfl⟩, placed₂, total₂, rfl⟩
    exact ⟨⟨placed₁, placed₂⟩, ⟨total₁, total₂⟩, survivors⟩

theorem evaluateItems_of_no_or {items : List Item} (united : .connective .or ∉ items) (r : α) :
    evaluateItems r items = Outcome.all (Term.evaluate r) (items.filterMap Item.term?) := by
  have inside : ∀ item ∈ items, item.isOr = false := by
    intro item mem
    rcases item with _ | (_ | _)
    · rfl
    · rfl
    · exact absurd mem united
  rw [evaluateItems, splitGroups, List.splitOnP_eq_singleton inside]
  exact Outcome.either_false _

theorem evaluateItems_append {items more : List Item} (united : .connective .or ∉ items)
    (united' : .connective .or ∉ more) (r : α) :
    evaluateItems r (items ++ more) =
      Outcome.both (evaluateItems r items) (evaluateItems r more) := by
  have joined : .connective .or ∉ items ++ more := by
    rw [List.mem_append]
    exact not_or_intro united united'
  rw [evaluateItems_of_no_or joined, evaluateItems_of_no_or united, evaluateItems_of_no_or united',
    List.filterMap_append, Outcome.all_append]

theorem append_runsAs {first second : Query} (placed : Placed first.items)
    (placed' : Placed second.items) (united : .connective .or ∉ first.items)
    (united' : .connective .or ∉ second.items) (free : first.constraints = []) :
    RunsAs α { items := first.items ++ second.items, constraints := second.constraints }
      first second := by
  refine runsAs_of_both (iff_of_true (placed.append placed') ⟨placed, placed'⟩) fun r => ?_
  rw [evaluate, evaluate, evaluate, evaluateItems_append united united', Outcome.both_assoc, free,
    Outcome.all, Outcome.both_true]

theorem constrain_runsAs (q : Query) (i : Intersection) :
    RunsAs α (q.constrain i) q (empty.constrain i) := by
  refine runsAs_of_both (iff_self_and.2 fun _ => placed_nil) fun r => ?_
  rw [evaluate_constrain, evaluate_constrain]
  rfl

theorem constrain_runsAs_term (q : Query) (i : Intersection) :
    RunsAs α (q.constrain i) q (ofTerm (.intersection i)) := by
  refine runsAs_of_both (iff_self_and.2 fun _ => placed_term _) fun r => ?_
  rw [evaluate_constrain, evaluate_ofTerm, Term.evaluate]

end

/-- Conjunction is filtering in turn: the terms of two queries without an `or`, the first of them
without constraints, and a query with one more constraint, whatever it consists of. An `and` between
two terms changes nothing. -/
theorem conjunction_runsAs (α : Type) [Record α] :
    (∀ (first second : Query) (p p' : Predicate), first.compile = .ok p → second.compile = .ok p' →
      .connective .or ∉ first.items → .connective .or ∉ second.items → first.constraints = [] →
      RunsAs α { items := first.items ++ second.items, constraints := second.constraints }
        first second) ∧
      (∀ (q : Query) (i : Intersection), RunsAs α (q.constrain i) q (empty.constrain i) ∧
        RunsAs α (q.constrain i) q (ofTerm (.intersection i))) ∧
      ∀ (before after : List Item) (a b : Term) (constraints : List Intersection) (p : Predicate),
        compile ⟨before ++ .term a :: .connective .and :: .term b :: after, constraints⟩ = .ok p ↔
          compile ⟨before ++ .term a :: .term b :: after, constraints⟩ = .ok p := by
  refine ⟨?_, fun q i => ⟨constrain_runsAs q i, constrain_runsAs_term q i⟩,
    fun _ _ _ _ _ _ => compile_and_eq_ok_iff⟩
  intro first second p p' compiled compiled' united united' free
  exact append_runsAs (misplaced?_eq_none_iff.1 (compile_eq_ok_iff.1 compiled).1)
    (misplaced?_eq_none_iff.1 (compile_eq_ok_iff.1 compiled').1) united united' free

def named : Query := empty.compare (.ofField "file_name") (.string "a.png")

def wide : Query :=
  (empty.compare (.ofField "width") (.int 5) .ge).constrain
    { terms := [{ field := "license", values := [.int 4] }] }

/-- An image that is kept, one without a width that the first query drops and a narrow one. -/
def pictures : Table Image where
  records := [{ id := 1, fileName := "a.png", width := some 7, license := some 4 },
    { id := 2, fileName := "b.png" }, { id := 3, fileName := "a.png", width := some 3 }]
  policy := .strict

/-- The second query fails on the table, but not on what the first one leaves of it. -/
theorem pictures_named_wide :
    (∃ fault, wide.run pictures = .error fault) ∧
      Query.run { items := named.items ++ wide.items, constraints := wide.constraints } pictures =
        .ok (pictures.derive
          [{ id := 1, fileName := "a.png", width := some 7, license := some 4 }]) :=
  ⟨⟨_, rfl⟩, ((conjunction_runsAs Image).1 named wide _ _ rfl rfl (by simp [named, empty, add, compare])
    (by simp [wide, empty, add, compare, constrain]) rfl _ _).2 ⟨_, rfl, rfl⟩⟩

/-- Two passes report another fault than one: the first query alone comes to the second image. -/
example :
    (let images : Table Image := .ofList [{ id := 1, fileName := "a.png", width := some 7 },
      { id := 2, fileName := "b.png" }]
    let first := empty.compare (.ofField "width") (.int 5) .ge
    let second := empty.compare (.ofField "height") (.int 5) .ge
    (Fault.of? (Query.run { items := first.items ++ second.items } images),
      Fault.of? ((first.run images).bind second.run))) =
    (some (.evaluation 1 "entity.height >= 5" (.typeMismatch "height" (some .int) none)),
      some (.evaluation 2 "entity.width >= 5" (.typeMismatch "width" (some .int) none))) := rfl

end Query

end ImageCatalog
