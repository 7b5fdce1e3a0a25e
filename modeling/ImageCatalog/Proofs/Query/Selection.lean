import ImageCatalog.Proofs.Outcome
import ImageCatalog.Proofs.Query.Evaluation
import ImageCatalog.Query.Run

set_option autoImplicit false

namespace ImageCatalog

namespace Outcome

def holds : Outcome → Bool
  | .ok b => b
  | .error _ => false

theorem holds_eq_true_iff {o : Outcome} : o.holds = true ↔ o = .ok true := by
  rcases o with fault | _ | _ <;> simp [holds]

end Outcome

namespace Table

variable {α : Type}

def only (t : Table α) (condition : α → Bool) : Table α := t.derive (t.records.filter condition)

@[simp] theorem records_only (t : Table α) (condition : α → Bool) :
    (t.only condition).records = t.records.filter condition := rfl

theorem mem_only {t : Table α} {condition : α → Bool} {r : α} :
    r ∈ (t.only condition).records ↔ r ∈ t.records ∧ condition r = true := List.mem_filter

theorem only_congr {t : Table α} {first second : α → Bool}
    (same : ∀ r ∈ t.records, first r = second r) : t.only first = t.only second := by
  rw [only, only, List.filter_congr same]

theorem only_eq_self {t : Table α} {condition : α → Bool}
    (all : ∀ r ∈ t.records, condition r = true) : t.only condition = t := by
  rw [only, List.filter_eq_self.2 all]
  rfl

theorem only_true (t : Table α) : (t.only fun _ => true) = t := only_eq_self fun _ _ => rfl

theorem only_only (t : Table α) (first second : α → Bool) :
    (t.only first).only second = t.only fun r => second r && first r := by
  rw [only, records_only, List.filter_filter]
  rfl

end Table

namespace Predicate

variable {α : Type} [Record α]

theorem run_eq_keep (p : Predicate) (t : Table α) :
    p.run t = (p.keep t.records).map t.derive := by
  unfold run
  split
  · next constant =>
    have whole : ∀ rs : List α, p.keep rs = .ok rs := by
      intro rs
      induction rs with
      | nil => rfl
      | cons r rs ih => simp [keep, eval_of_isTrue r constant, ih, Except.map]
    rw [whole]
    rfl
  · rfl

theorem keep_eq_ok_iff {p : Predicate} {rs kept : List α} :
    p.keep rs = .ok kept ↔ (∀ r ∈ rs, ∃ b, p.eval r = .ok b) ∧
      kept = rs.filter fun r => Outcome.holds (p.eval r) := by
  induction rs generalizing kept with
  | nil => simp [keep, eq_comm]
  | cons r rs ih =>
    rw [keep]
    cases value : p.eval r with
    | error fault => simp [value]
    | ok b =>
      simp only [List.forall_mem_cons, List.filter_cons, value, Outcome.holds]
      constructor
      · intro result
        obtain ⟨rest, tail, rfl⟩ := map_eq_ok_iff.1 result
        obtain ⟨total, rfl⟩ := ih.1 tail
        exact ⟨⟨⟨b, rfl⟩, total⟩, rfl⟩
      · rintro ⟨⟨-, total⟩, rfl⟩
        rw [ih.2 ⟨total, rfl⟩]
        rfl

theorem keep_of_both {p narrow : Predicate} {condition : α → Bool}
    (value : ∀ r : α, narrow.eval r = Outcome.both (p.eval r) (.ok (condition r))) (rs : List α) :
    narrow.keep rs = (p.keep rs).map fun kept => kept.filter condition := by
  induction rs with
  | nil => rfl
  | cons r rs ih =>
    rw [keep, keep, value, ih]
    rcases p.eval r with fault | _ | _
    · rfl
    · rcases p.keep rs with fault | kept <;> rfl
    · rcases p.keep rs with fault | kept
      · rfl
      · simp only [Outcome.both, Except.map, List.filter_cons, if_true]

end Predicate

namespace Query

variable {α : Type} [Record α]

/-- Whether a query holds of a record; where it fails it does not. -/
def holds (q : Query) (r : α) : Bool := Outcome.holds (q.evaluate r)

theorem run_of_misplaced {q : Query} {misplaced : Misplaced}
    (fault : misplaced? q.items = some misplaced) (t : Table α) :
    q.run t = .error (.malformedQuery misplaced.message) := by
  rw [run, compile, fault]
  rfl

theorem run_of_placed {q : Query} (placed : misplaced? q.items = none) :
    ∃ p : Predicate, (∀ r : α, p.eval r = q.evaluate r) ∧
      ∀ t : Table α, q.run t = (p.keep t.records).map t.derive := by
  refine ⟨_, fun r => eval_compiled r placed, fun t => ?_⟩
  rw [run, compile_eq_ok_iff.2 ⟨placed, rfl⟩, Except.bind, Predicate.run_eq_keep]

theorem run_eq_ok_iff {q : Query} {t kept : Table α} :
    q.run t = .ok kept ↔ misplaced? q.items = none ∧
      (∀ r ∈ t.records, ∃ b, q.evaluate r = .ok b) ∧ kept = t.only q.holds := by
  cases placed : misplaced? q.items with
  | some misplaced => simp [run_of_misplaced placed]
  | none =>
    obtain ⟨p, value, result⟩ := run_of_placed (α := α) placed
    rw [result, map_eq_ok_iff]
    simp only [Predicate.keep_eq_ok_iff, value, true_and]
    constructor
    · rintro ⟨_, ⟨total, rfl⟩, rfl⟩
      exact ⟨total, rfl⟩
    · rintro ⟨total, rfl⟩
      exact ⟨_, ⟨total, rfl⟩, rfl⟩

theorem run_subset {q : Query} {t kept : Table α} (result : q.run t = .ok kept) :
    kept.records ⊆ t.records := by
  obtain ⟨-, -, rfl⟩ := run_eq_ok_iff.1 result
  exact fun r member => (Table.mem_only.1 member).1

theorem evaluate_ofTerm (term : Term) (r : α) : (ofTerm term).evaluate r = term.evaluate r := by
  have one : evaluateItems r [.term term] = term.evaluate r := by
    rw [evaluateItems, splitGroups]
    exact (Outcome.either_false _).trans (Outcome.both_true _)
  rw [evaluate, ofTerm, one]
  exact Outcome.both_true _

theorem evaluate_constrain (q : Query) (i : Intersection) (r : α) :
    (q.constrain i).evaluate r = Outcome.both (q.evaluate r) (i.evaluate r) := by
  rw [evaluate, evaluate, constrain, Outcome.all_append, Outcome.both_assoc]
  rw [Outcome.all, Outcome.all, Outcome.both_true]

theorem run_constrain {i : Intersection} {condition : α → Bool}
    (value : ∀ r : α, i.evaluate r = .ok (condition r)) (q : Query) (t : Table α) :
    (q.constrain i).run t = (q.run t).map fun kept => kept.only condition := by
  cases placed : misplaced? q.items with
  | some misplaced =>
    rw [run_of_misplaced placed, run_of_misplaced (q := q.constrain i) placed]
    rfl
  | none =>
    obtain ⟨p, whole, result⟩ := run_of_placed (α := α) placed
    obtain ⟨narrow, narrowed, result'⟩ := run_of_placed (α := α) (q := q.constrain i) placed
    have step : ∀ r : α, narrow.eval r = Outcome.both (p.eval r) (.ok (condition r)) := by
      intro r
      rw [narrowed, whole, evaluate_constrain, value]
    rw [result, result', Predicate.keep_of_both step]
    rcases p.keep t.records with fault | kept <;> rfl

theorem run_empty (t : Table α) : empty.run t = .ok t := rfl

theorem run_eq_self {q : Query} {t kept rest : Table α} (result : q.run t = .ok kept)
    (part : ∀ r ∈ rest.records, r ∈ kept.records) : q.run rest = .ok rest := by
  obtain ⟨placed, -, rfl⟩ := run_eq_ok_iff.1 result
  have satisfied : ∀ r ∈ rest.records, q.holds r = true := fun r member =>
    (Table.mem_only.1 (part r member)).2
  refine run_eq_ok_iff.2 ⟨placed, fun r member => ?_, (Table.only_eq_self satisfied).symm⟩
  exact ⟨true, Outcome.holds_eq_true_iff.1 (satisfied r member)⟩

end Query

end ImageCatalog
