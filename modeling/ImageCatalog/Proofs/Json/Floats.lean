import ImageCatalog.Proofs.Json.Numbers

set_option autoImplicit false

namespace ImageCatalog

theorem map_eq_self_iff {α : Type} {f : α → α} {as : List α} :
    as.map f = as ↔ ∀ a ∈ as, f a = a := by
  have same := @List.map_inj_left _ _ as f id
  rwa [List.map_id] at same

namespace Json

mutual

def floats : Json → List Binary64
  | .number (.float x) => [x]
  | .array items => floatsOfItems items
  | .object members => floatsOfMembers members
  | _ => []

def floatsOfItems : List Json → List Binary64
  | [] => []
  | item :: items => item.floats ++ floatsOfItems items

def floatsOfMembers : List (String × Json) → List Binary64
  | [] => []
  | (_, value) :: members => value.floats ++ floatsOfMembers members

end

theorem forall_floats_array_iff {P : Binary64 → Prop} {items : List Json} :
    (∀ x ∈ (Json.array items).floats, P x) ↔ ∀ json ∈ items, ∀ x ∈ json.floats, P x := by
  rw [floats]
  induction items with
  | nil => simp [floatsOfItems]
  | cons item items ih =>
    rw [floatsOfItems, List.forall_mem_append, ih, List.forall_mem_cons]

theorem forall_floats_object_iff {P : Binary64 → Prop} {members : List (String × Json)} :
    (∀ x ∈ (Json.object members).floats, P x) ↔
      ∀ member ∈ members, ∀ x ∈ member.2.floats, P x := by
  rw [floats]
  induction members with
  | nil => simp [floatsOfMembers]
  | cons member members ih =>
    rw [floatsOfMembers, List.forall_mem_append, ih, List.forall_mem_cons]

/-- Every floating-point number of the value reads back from its text. -/
def ReadsBack (json : Json) : Prop := ∀ x ∈ json.floats, x.ReadsBack

instance (json : Json) : Decidable json.ReadsBack :=
  inferInstanceAs (Decidable (∀ x ∈ json.floats, x.ReadsBack))

theorem readsBack_array_iff {items : List Json} :
    (Json.array items).ReadsBack ↔ ∀ json ∈ items, json.ReadsBack :=
  forall_floats_array_iff

theorem readsBack_object_iff {members : List (String × Json)} :
    (Json.object members).ReadsBack ↔ ∀ member ∈ members, member.2.ReadsBack :=
  forall_floats_object_iff

mutual

/-- The objects of a value that stand in no other one. -/
def outerObjects : Json → List Json
  | .object members => [.object members]
  | .array items => outerObjectsOfItems items
  | _ => []

def outerObjectsOfItems : List Json → List Json
  | [] => []
  | item :: items => item.outerObjects ++ outerObjectsOfItems items

end

theorem forall_outerObjectsOfItems_iff {P : Json → Prop} {items : List Json} :
    (∀ object ∈ outerObjectsOfItems items, P object) ↔
      ∀ json ∈ items, ∀ object ∈ json.outerObjects, P object := by
  induction items with
  | nil => simp [outerObjectsOfItems]
  | cons item items ih =>
    rw [outerObjectsOfItems, List.forall_mem_append, ih, List.forall_mem_cons]

/-- Every object of the value reads back from its text. -/
def ObjectsReadBack (json : Json) : Prop := ∀ object ∈ json.outerObjects, object.ReadsBack

instance (json : Json) : Decidable json.ObjectsReadBack :=
  inferInstanceAs (Decidable (∀ object ∈ json.outerObjects, object.ReadsBack))

theorem objectsReadBack_array_iff {items : List Json} :
    (Json.array items).ObjectsReadBack ↔ ∀ json ∈ items, json.ObjectsReadBack := by
  rw [ObjectsReadBack, outerObjects]
  exact forall_outerObjectsOfItems_iff

mutual

theorem ReadsBack.objectsReadBack {json : Json} (faithful : json.ReadsBack) :
    json.ObjectsReadBack := by
  cases json with
  | array items =>
    rw [ObjectsReadBack, outerObjects]
    exact readsBack_outerObjectsOfItems (readsBack_array_iff.1 faithful)
  | object members => exact List.forall_mem_singleton.2 faithful
  | _ => exact fun _ mem => absurd mem List.not_mem_nil

theorem readsBack_outerObjectsOfItems {items : List Json}
    (faithful : ∀ json ∈ items, json.ReadsBack) :
    ∀ object ∈ outerObjectsOfItems items, object.ReadsBack := by
  cases items with
  | nil => exact fun _ mem => absurd mem List.not_mem_nil
  | cons item items =>
    obtain ⟨first, others⟩ := List.forall_mem_cons.1 faithful
    exact List.forall_mem_append.2
      ⟨first.objectsReadBack, readsBack_outerObjectsOfItems others⟩

end

mutual

/-- The value that the text of a value is read as. -/
def reread : Json → Json
  | .number n => .number n.reread
  | .array items => .array (rereadItems items)
  | .object members => .object (rereadMembers members)
  | json => json

def rereadItems : List Json → List Json
  | [] => []
  | item :: items => item.reread :: rereadItems items

def rereadMembers : List (String × Json) → List (String × Json)
  | [] => []
  | (name, value) :: members => (name, value.reread) :: rereadMembers members

end

theorem reread_array (items : List Json) :
    (Json.array items).reread = .array (items.map reread) := by
  rw [reread]
  congr 1
  induction items with
  | nil => rfl
  | cons item items ih => rw [rereadItems, ih, List.map_cons]

theorem reread_object (members : List (String × Json)) :
    (Json.object members).reread =
      .object (members.map fun member => (member.1, member.2.reread)) := by
  rw [reread]
  congr 1
  induction members with
  | nil => rfl
  | cons member members ih => rw [rereadMembers, ih, List.map_cons]

end Json

end ImageCatalog
