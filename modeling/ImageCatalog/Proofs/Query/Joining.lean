import ImageCatalog.Catalog.Image
import ImageCatalog.Proofs.Query.Leaves
import ImageCatalog.Proofs.Query.Membership
import ImageCatalog.Proofs.Query.Semijoin

/-! Restricting a table to the values of another one comes to a semijoin on equality, though it goes
through a list without repetitions, a set and a query: a record stays iff some record of the peer
has an equal value. It fails on the peer first, and else on the first record without the field. -/

set_option autoImplicit false

namespace ImageCatalog

open Record (idOf field?)

section Restriction

variable {α : Type} [Record α]

private theorem evaluate_isIn {field : String} {r : α} {v : Value} (value : field? r field = some v)
    (vs : List Value) :
    (Query.ofTerm (.member { field, values := vs })).evaluate r =
      .ok ((ValueSet.ofList vs).contains v) := by
  have resolved : (Access.ofField field).resolve r = .ok v := by
    rw [Access.resolve, Access.ofField, Record.fieldValue, value]
  rw [Query.evaluate_ofTerm]
  exact Predicate.eval_isIn resolved _

private theorem evaluate_missing {field : String} {r : α} (missing : field? r field = none)
    (vs : List Value) :
    (Query.ofTerm (.member { field, values := vs })).evaluate r =
      .error (.evaluation (idOf r) (Predicate.memberText (.ofField field) .isIn (.ofList vs))
        (.fieldNotFound (Record.kind α) field)) := by
  have unresolved : (Access.ofField field).resolve r =
      .error (.fieldNotFound (Record.kind α) field) := Access.FailsOn.resolve (.fieldNotFound missing)
  rw [Query.evaluate_ofTerm, Term.evaluate, MemberTerm.evaluate, Predicate.eval, unresolved]
  rfl

namespace Table

variable {t : Table α} {field : String}

theorem restrict_of_resolves (each : ∀ r ∈ t.records, (field? r field).isSome = true)
    (allowed : List Value) :
    t.restrict field allowed =
      .ok (t.only fun r => (field? r field).any (ValueSet.ofList allowed).contains) := by
  have outcome : ∀ r ∈ t.records,
      (Query.ofTerm (.member { field, values := allowed })).evaluate r =
        .ok ((field? r field).any (ValueSet.ofList allowed).contains) := by
    intro r mem
    obtain ⟨v, value⟩ := Option.isSome_iff_exists.1 (each r mem)
    rw [evaluate_isIn value, value, Option.any_some]
  refine Query.run_eq_ok_iff.2 ⟨rfl, fun r mem => ⟨_, outcome r mem⟩, only_congr fun r mem => ?_⟩
  rw [Query.holds, outcome r mem, Outcome.holds]

theorem restrict_of_missing {before after : List α} {r : α}
    (records : t.records = before ++ r :: after)
    (each : ∀ other ∈ before, (field? other field).isSome = true)
    (missing : field? r field = none) (allowed : List Value) :
    t.restrict field allowed =
      .error (.evaluation (idOf r) (Predicate.memberText (.ofField field) .isIn (.ofList allowed))
        (.fieldNotFound (Record.kind α) field)) := by
  have compiled : (Query.ofTerm (.member { field, values := allowed })).compile = .ok _ := rfl
  have value := fun r' : α => Query.eval_eq_evaluate compiled r'
  rw [restrict, Query.run_eq_error_iff, Query.fault?, compiled]
  dsimp only
  rw [Predicate.fault?, List.findSome?_eq_some_iff]
  refine ⟨before, r, after, records, ?_, fun other mem => ?_⟩
  · rw [value, evaluate_missing missing]
    rfl
  · obtain ⟨v, found⟩ := Option.isSome_iff_exists.1 (each other mem)
    rw [value, evaluate_isIn found]
    rfl

theorem resolved_or_missing (records : List α) (field : String) :
    (∀ r ∈ records, (field? r field).isSome = true) ∨
      ∃ before r after, records = before ++ r :: after ∧
        (∀ other ∈ before, (field? other field).isSome = true) ∧ field? r field = none := by
  cases found : records.find? fun r => (field? r field).isNone with
  | none =>
    rw [List.find?_eq_none] at found
    exact Or.inl fun r mem => by simpa [← Option.isSome_iff_ne_none] using found r mem
  | some r =>
    obtain ⟨missing, before, after, records, each⟩ := List.find?_eq_some_iff_append.1 found
    refine Or.inr ⟨before, r, after, records, fun other mem => ?_, Option.isNone_iff_eq_none.1 missing⟩
    simpa [← Option.isSome_iff_ne_none] using each other mem

theorem restrict_ne_fieldNotFound (t : Table α) (field : String) (allowed : List Value)
    (kind key : String) : t.restrict field allowed ≠ .error (.fieldNotFound kind key) := by
  intro result
  rcases resolved_or_missing t.records field with each | ⟨before, r, after, records, each, missing⟩
  · rw [restrict_of_resolves each] at result
    cases result
  · rw [restrict_of_missing records each missing] at result
    cases result

end Table

end Restriction

namespace Table

variable {α β : Type} [Record α] [Record β]

/-- The values of a field of a peer contain a value iff some record of the peer has an equal one,
where the NaNs in sight are all one word. -/
private theorem contains_valuesOf_iff {peer : Table β} {key : String} {nan : Binary64} {v : Value}
    (uniform : ∀ w ∈ peer.valuesOf key, ∀ x ∈ w.nans, x = nan) (uniform' : ∀ x ∈ v.nans, x = nan) :
    (ValueSet.ofList (Value.distinct (peer.valuesOf key))).contains v = true ↔
      ∃ p ∈ peer.records, (field? p key == some v) = true := by
  rw [ValueSet.contains_ofList, Value.foundIn_distinct, ← ValueSet.contains_ofList,
    ValueSet.contains_iff_of_uniform uniform uniform']
  constructor
  · rintro ⟨w, among, same⟩
    obtain ⟨p, mem, value⟩ := List.mem_filterMap.1 among
    exact ⟨p, mem, by rw [value]; exact same⟩
  · rintro ⟨p, mem, same⟩
    cases value : field? p key with
    | none => rw [value] at same; cases same
    | some w =>
      rw [value] at same
      exact ⟨w, List.mem_filterMap.2 ⟨p, mem, value⟩, same⟩

/-- A table is restricted to a peer as by comparing every record with every record of the peer. The
peer comes first: its kind and its records have to have the key. Then the first record without the
field fails. Else those records stay, in order and under the same policy, that are equal in the field
to some record of the peer in the key. -/
theorem restrictToPeer_isSemijoin (t : Table α) (field : String) (peer : Table β) (key : String) :
    (t.restrictToPeer field peer key = .error (.fieldNotFound (Record.kind β) key) ↔
        Record.hasField β key = false ∨ ∃ p ∈ peer.records, field? p key = none) ∧
      (peer.Resolves key → ∀ before r after, t.records = before ++ r :: after →
        (∀ other ∈ before, (field? other field).isSome = true) → field? r field = none →
        t.restrictToPeer field peer key = .error (.evaluation (idOf r)
          (Predicate.memberText (.ofField field) .isIn (.ofList (Value.distinct (peer.valuesOf key))))
          (.fieldNotFound (Record.kind α) field))) ∧
      (peer.Resolves key → (∀ r ∈ t.records, (field? r field).isSome = true) →
        ∀ nan : Binary64, (∀ w ∈ peer.valuesOf key, ∀ x ∈ w.nans, x = nan) →
          (∀ v ∈ t.valuesOf field, ∀ x ∈ v.nans, x = nan) →
          t.restrictToPeer field peer key =
            .ok (t.only fun r => peer.records.any fun p => field? p key == field? r field)) := by
  refine ⟨?_, ?_, ?_⟩
  · rw [← not_resolves_iff, restrictToPeer]
    by_cases resolves : peer.Resolves key
    · rw [uniqueValues_of_resolves resolves]
      exact iff_of_false (restrict_ne_fieldNotFound t field _ _ key) (not_not_intro resolves)
    · rw [uniqueValues_of_not_resolves resolves]
      exact iff_of_true rfl resolves
  · intro resolves before r after records each missing
    rw [restrictToPeer, uniqueValues_of_resolves resolves]
    exact restrict_of_missing records each missing _
  · intro resolves each nan uniform uniform'
    rw [restrictToPeer, uniqueValues_of_resolves resolves, Except.bind, restrict_of_resolves each]
    refine congrArg Except.ok (only_congr fun r mem => ?_)
    obtain ⟨v, value⟩ := Option.isSome_iff_exists.1 (each r mem)
    have among : v ∈ t.valuesOf field := List.mem_filterMap.2 ⟨r, mem, value⟩
    rw [value, Option.any_some, Bool.eq_iff_iff, contains_valuesOf_iff uniform (uniform' v among),
      List.any_eq_true]

/-- Annotations with a whole area, without one, with a fraction and with a NaN. -/
def measured : Table Annotation where
  records :=
    [some ⟨0x4008000000000000⟩, none, some ⟨0x3ff8000000000000⟩, some (.quietNaN false)].mapIdx
      fun i area =>
        { id := .ofNat (i + 1), imageId := 1, categoryId := 1
          box := ⟨.zero, .zero, .zero, .zero⟩, area }
  policy := .strict

def sized : Table Image where
  records := [some 3, none, some 2, some 3].map fun width => { fileName := "a.png", width }

/-- The area 3.0 is the width 3, and an absent area is an absent width. Annotations have no width,
so the first one fails. -/
theorem measured_restrictToPeer_sized :
    sized.Resolves "width" ∧
      measured.restrictToPeer "area" sized "width" = .ok (measured.only fun a =>
        sized.records.any fun image => field? image "width" == field? a "area") ∧
      (measured.only fun a =>
        sized.records.any fun image => field? image "width" == field? a "area").records.map (·.id) =
          [1, 2] ∧
      measured.restrictToPeer "width" sized "width" = .error (.evaluation 1
        "entity.width in [3, null, 2]" (.fieldNotFound "annotation" "width")) := by
  have resolves : sized.Resolves "width" := ⟨by decide, by decide⟩
  have kept := (restrictToPeer_isSemijoin measured "area" sized "width").2.2 resolves (by decide)
    (.quietNaN false) (by decide) (by decide)
  have refused := (restrictToPeer_isSemijoin measured "width" sized "width").2.1 resolves [] _ _ rfl
    (by simp) rfl
  have text : Predicate.memberText (.ofField "width") .isIn
      (.ofList (Value.distinct (sized.valuesOf "width"))) = "entity.width in [3, null, 2]" := by
    decide +kernel
  rw [text] at refused
  exact ⟨resolves, kept, by decide +kernel, refused⟩

end Table

end ImageCatalog
