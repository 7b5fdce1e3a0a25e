import Mathlib.Data.List.Chain
import ImageCatalog.Proofs.Query.Evaluation

set_option autoImplicit false

namespace ImageCatalog

namespace Item

def isTerm : Item → Bool
  | .term _ => true
  | .connective _ => false

def Apart (first second : Item) : Prop := first.isTerm = true ∨ second.isTerm = true

end Item

namespace Query

structure Placed (items : List Item) : Prop where
  starts : ∀ item ∈ items.head?, item.isTerm = true
  ends : ∀ item ∈ items.getLast?, item.isTerm = true
  apart : items.IsChain Item.Apart

theorem leading?_eq_none_iff {items : List Item} :
    leading? items = none ↔ ∀ item ∈ items.head?, item.isTerm = true := by
  cases items with
  | nil => simp [leading?]
  | cons item items => cases item <;> simp [leading?, Item.isTerm]

theorem trailing?_eq_none_iff {items : List Item} :
    trailing? items = none ↔ ∀ item ∈ items.getLast?, item.isTerm = true := by
  rw [trailing?]
  cases items.getLast? with
  | none => simp
  | some item => cases item <;> simp [Item.isTerm]

theorem doubled?_eq_none_iff {position : Nat} {afterConnective : Bool} {items : List Item} :
    doubled? position afterConnective items = none ↔ items.IsChain Item.Apart ∧
      (afterConnective = true → ∀ item ∈ items.head?, item.isTerm = true) := by
  induction items generalizing position afterConnective with
  | nil => simp [doubled?]
  | cons item items ih =>
    rw [List.isChain_cons]
    cases item with
    | term term =>
      rw [doubled?, ih]
      simp [Item.Apart, Item.isTerm]
    | connective op =>
      rw [doubled?]
      cases afterConnective with
      | true => simp [Item.isTerm]
      | false =>
        rw [if_neg Bool.false_ne_true, ih]
        simp [Item.Apart, Item.isTerm, and_comm]

theorem misplaced?_eq_none_iff {items : List Item} : misplaced? items = none ↔ Placed items := by
  rw [misplaced?, Option.or_eq_none_iff, Option.or_eq_none_iff, leading?_eq_none_iff,
    doubled?_eq_none_iff, trailing?_eq_none_iff]
  constructor
  · rintro ⟨starts, ⟨apart, -⟩, ends⟩
    exact ⟨starts, ends, apart⟩
  · rintro ⟨starts, ends, apart⟩
    exact ⟨starts, ⟨apart, fun after => absurd after Bool.false_ne_true⟩, ends⟩

theorem placed_nil : Placed [] := misplaced?_eq_none_iff.1 rfl

theorem placed_term (term : Term) : Placed [.term term] := misplaced?_eq_none_iff.1 rfl

theorem Placed.append {first second : List Item} (placed : Placed first) (placed' : Placed second) :
    Placed (first ++ second) where
  starts item mem := by
    rw [List.head?_append, Option.mem_def, Option.or_eq_some_iff] at mem
    rcases mem with mem | ⟨-, mem⟩
    · exact placed.starts item mem
    · exact placed'.starts item mem
  ends item mem := by
    rw [List.getLast?_append, Option.mem_def, Option.or_eq_some_iff] at mem
    rcases mem with mem | ⟨-, mem⟩
    · exact placed'.ends item mem
    · exact placed.ends item mem
  apart := List.isChain_append.2
    ⟨placed.apart, placed'.apart, fun _ last _ _ => Or.inl (placed.ends _ last)⟩

theorem placed_connective_iff {before after : List Item} {a b : Term} {op : Connective} :
    Placed (before ++ .term a :: .connective op :: .term b :: after) ↔
      Placed (before ++ .term a :: .term b :: after) := by
  have apart : (before ++ .term a :: .connective op :: .term b :: after).IsChain Item.Apart ↔
      (before ++ .term a :: .term b :: after).IsChain Item.Apart := by
    rw [List.isChain_append_cons_cons, List.isChain_append_cons_cons, List.isChain_cons_cons]
    simp [Item.Apart, Item.isTerm]
  constructor
  · rintro ⟨starts, ends, chain⟩
    exact ⟨by simpa using starts, by simpa using ends, apart.1 chain⟩
  · rintro ⟨starts, ends, chain⟩
    exact ⟨by simpa using starts, by simpa using ends, apart.2 chain⟩

theorem groupsFrom_and (group : List Term) (before after : List Item) :
    groupsFrom group (before ++ .connective .and :: after) = groupsFrom group (before ++ after) := by
  induction before generalizing group with
  | nil => rw [List.nil_append, List.nil_append, groupsFrom]
  | cons item before ih =>
    rw [List.cons_append, List.cons_append]
    cases item with
    | term term => rw [groupsFrom, groupsFrom, ih]
    | connective op => cases op <;> rw [groupsFrom, groupsFrom, ih]

theorem compile_and_eq_ok_iff {before after : List Item} {a b : Term}
    {constraints : List Intersection} {p : Predicate} :
    compile ⟨before ++ .term a :: .connective .and :: .term b :: after, constraints⟩ = .ok p ↔
      compile ⟨before ++ .term a :: .term b :: after, constraints⟩ = .ok p := by
  have same : groups (before ++ .term a :: .connective .and :: .term b :: after) =
      groups (before ++ .term a :: .term b :: after) := by
    have left := groupsFrom_and [] (before ++ [.term a]) (.term b :: after)
    rwa [List.append_assoc, List.append_assoc] at left
  rw [compile_eq_ok_iff, compile_eq_ok_iff, misplaced?_eq_none_iff, misplaced?_eq_none_iff,
    placed_connective_iff, body, body, same]

end Query

end ImageCatalog
