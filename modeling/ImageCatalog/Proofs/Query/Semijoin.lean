import ImageCatalog.Proofs.Query.Selection
import ImageCatalog.Proofs.Value.Equality

set_option autoImplicit false

namespace ImageCatalog

namespace Query

variable {α : Type} [Record α]

theorem run_ofTerm {term : Term} {condition : α → Bool}
    (value : ∀ r : α, term.evaluate r = .ok (condition r)) (t : Table α) :
    (ofTerm term).run t = .ok (t.only condition) := by
  have outcome : ∀ r : α, (ofTerm term).evaluate r = .ok (condition r) := fun r =>
    (evaluate_ofTerm term r).trans (value r)
  refine run_eq_ok_iff.2 ⟨rfl, fun r _ => ⟨_, outcome r⟩, Table.only_congr fun r _ => ?_⟩
  rw [holds, outcome, Outcome.holds]

end Query

namespace Table

variable {α : Type} [Record α]

def valuesOf (t : Table α) (field : String) : List Value :=
  t.records.filterMap fun r => Record.field? r field

structure Resolves (t : Table α) (field : String) : Prop where
  listed : Record.hasField α field = true
  each : ∀ r ∈ t.records, (Record.field? r field).isSome = true

private theorem mapM_fieldValue_of_isSome {field : String} {rs : List α}
    (each : ∀ r ∈ rs, (Record.field? r field).isSome = true) :
    rs.mapM (Record.fieldValue field) = .ok (rs.filterMap fun r => Record.field? r field) := by
  induction rs with
  | nil => rfl
  | cons r rs ih =>
    obtain ⟨first, others⟩ := List.forall_mem_cons.1 each
    obtain ⟨v, value⟩ := Option.isSome_iff_exists.1 first
    rw [List.mapM_cons, Record.fieldValue, value, ih others, List.filterMap_cons, value]
    rfl

private theorem mapM_fieldValue_of_none {field : String} {rs : List α} {r : α} (mem : r ∈ rs)
    (missing : Record.field? r field = none) :
    rs.mapM (Record.fieldValue field) = .error (.fieldNotFound (Record.kind α) field) := by
  induction rs with
  | nil => cases mem
  | cons first rs ih =>
    rw [List.mapM_cons, Record.fieldValue]
    cases value : Record.field? first field with
    | none => rfl
    | some v =>
      rcases List.mem_cons.1 mem with rfl | mem
      · rw [missing] at value
        cases value
      · rw [ih mem]
        rfl

theorem uniqueValues_of_resolves {t : Table α} {field : String} (resolves : t.Resolves field) :
    t.uniqueValues field = .ok (Value.distinct (t.valuesOf field)) := by
  rw [uniqueValues, if_pos resolves.listed, mapM_fieldValue_of_isSome resolves.each]
  rfl

theorem not_resolves_iff {t : Table α} {field : String} :
    ¬t.Resolves field ↔
      Record.hasField α field = false ∨ ∃ r ∈ t.records, Record.field? r field = none := by
  constructor
  · intro fails
    by_contra other
    simp only [not_or, not_exists, not_and, Bool.not_eq_false] at other
    exact fails ⟨other.1, fun r mem => Option.isSome_iff_ne_none.2 (other.2 r mem)⟩
  · rintro (unlisted | ⟨r, mem, missing⟩) resolves
    · rw [resolves.listed] at unlisted
      cases unlisted
    · have value := resolves.each r mem
      rw [missing] at value
      cases value

theorem uniqueValues_of_not_resolves {t : Table α} {field : String} (fails : ¬t.Resolves field) :
    t.uniqueValues field = .error (.fieldNotFound (Record.kind α) field) := by
  rw [uniqueValues]
  rcases not_resolves_iff.1 fails with unlisted | ⟨r, mem, missing⟩
  · rw [if_neg (by simp [unlisted])]
  · rw [mapM_fieldValue_of_none mem missing]
    split <;> rfl

end Table

structure Column (α : Type) [Record α] where
  name : String
  value : α → Value
  listed : Record.hasField α name = true
  resolves : ∀ r : α, Record.field? r name = some (value r)

namespace Column

variable {α β : Type} [Record α] [Record β]

def meets (column : Column α) (key : Column β) (peer : List β) (r : α) : Bool :=
  peer.any fun p => (key.value p).answersFor (column.value r)

theorem fieldValue_eq (column : Column α) (r : α) :
    Record.fieldValue column.name r = .ok (column.value r) := by
  rw [Record.fieldValue, column.resolves]

theorem resolve_eq (column : Column α) (r : α) :
    (Access.ofField column.name).resolve r = .ok (column.value r) := by
  rw [Access.resolve, Access.ofField, column.fieldValue_eq]

theorem uniqueValues_eq (key : Column β) (peer : Table β) :
    peer.uniqueValues key.name = .ok (Value.distinct (peer.records.map key.value)) := by
  have resolves : peer.Resolves key.name :=
    ⟨key.listed, fun p _ => by rw [key.resolves, Option.isSome_some]⟩
  have values : peer.valuesOf key.name = peer.records.map key.value := by
    rw [Table.valuesOf, ← List.filterMap_eq_map]
    exact List.filterMap_congr fun p _ => key.resolves p
  rw [Table.uniqueValues_of_resolves resolves, values]

def linkTo (column : Column α) (key : Column β) (peer : Table β) : MemberTerm :=
  { field := column.name, values := Value.distinct (peer.records.map key.value) }

theorem evaluate_linkTo (column : Column α) (key : Column β) (peer : Table β) (r : α) :
    (column.linkTo key peer).evaluate r = .ok (column.meets key peer.records r) := by
  rw [MemberTerm.evaluate, linkTo, Predicate.eval, column.resolve_eq]
  simp only [Except.map, Membership.holds, ValueSet.contains_ofList, Value.foundIn_distinct,
    Predicate.atLeaf]
  rw [Value.foundIn, List.any_map]
  rfl

theorem memberOf_eq (column : Column α) (key : Column β) (i : Intersection) (peer : Table β) :
    i.memberOf column.name peer key.name = .ok (i.add (column.linkTo key peer)) := by
  rw [Intersection.memberOf, key.uniqueValues_eq]
  rfl

theorem restrictToPeer_eq (column : Column α) (key : Column β) (t : Table α) (peer : Table β) :
    t.restrictToPeer column.name peer key.name =
      .ok (t.only (column.meets key peer.records)) := by
  have value : ∀ r : α, Term.evaluate r (.member (column.linkTo key peer)) =
      .ok (column.meets key peer.records r) := column.evaluate_linkTo key peer
  rw [Table.restrictToPeer, key.uniqueValues_eq]
  exact Query.run_ofTerm value t

end Column

end ImageCatalog
