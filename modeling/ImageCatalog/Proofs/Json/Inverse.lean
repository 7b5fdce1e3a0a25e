import ImageCatalog.Proofs.Json.Nesting
import ImageCatalog.Proofs.Json.Restoring

/-! JSON values that become values of fields, and values of fields that become JSON, and back. A JSON
value comes back iff it is one that can be in memory, its integers outside objects have 64 bits with
sign, and no object in it nests deeper than text may or holds a floating-point number that does not
read back; a value of a field comes back iff its numbers are finite and its payloads are the texts of
such objects. -/

set_option autoImplicit false

namespace ImageCatalog

namespace Json

/-- What text holds of numbers and objects, while arrays outside objects nest to any depth. -/
inductive Legible : Json → Prop
  | null : Legible .null
  | bool (b : Bool) : Legible (.bool b)
  | number {n : JsonNumber} : n.Readable → Legible (.number n)
  | string (s : String) : Legible (.string s)
  | array {items : List Json} : (∀ json ∈ items, Legible json) → Legible (.array items)
  | object {members : List (String × Json)} :
      (Json.object members).Readable JsonText.depthLimit → Legible (.object members)

theorem Readable.legible {depth : Nat} {json : Json} (readable : json.Readable depth)
    (shallow : depth ≤ JsonText.depthLimit) : json.Legible := by
  induction readable with
  | null => exact .null
  | bool _ b => exact .bool b
  | number _ readable => exact .number readable
  | string _ s => exact .string s
  | array _ ih => exact .array fun json mem => ih json mem (Nat.le_of_succ_le shallow)
  | object sorted readable _ => exact .object ((Readable.object sorted readable).mono shallow)

mutual

def integers : Json → List Int
  | .number (.integer n) => [n]
  | .array items => integersOfItems items
  | _ => []

def integersOfItems : List Json → List Int
  | [] => []
  | item :: items => item.integers ++ integersOfItems items

end

mutual

/-- The value in which an integer past the signed 64 bits, outside objects, is the nearest
floating-point number, and an object is what its text is read as. -/
def rounded : Json → Json
  | .number (.integer n) =>
    .number (if Binary64.fitsInt64 n then .integer n else .float (Binary64.ofInt n))
  | .array items => .array (roundedItems items)
  | .object members => (Json.object members).reread
  | json => json

def roundedItems : List Json → List Json
  | [] => []
  | item :: items => item.rounded :: roundedItems items

end

theorem roundedItems_eq (items : List Json) : roundedItems items = items.map rounded := by
  induction items with
  | nil => rfl
  | cons item items ih => rw [roundedItems, ih, List.map_cons]

theorem forall_integersOfItems_iff {P : Int → Prop} {items : List Json} :
    (∀ n ∈ integersOfItems items, P n) ↔ ∀ json ∈ items, ∀ n ∈ json.integers, P n := by
  induction items with
  | nil => simp [integersOfItems]
  | cons item items ih =>
    rw [integersOfItems, List.forall_mem_append, ih, List.forall_mem_cons]

theorem Legible.rounded_eq_self_iff {json : Json} (legible : json.Legible) :
    json.rounded = json ↔
      (∀ n ∈ json.integers, Binary64.fitsInt64 n = true) ∧ json.ObjectsReadBack := by
  induction legible with
  | @number n =>
    cases n with
    | integer n =>
      rw [rounded, integers, List.forall_mem_singleton]
      cases Binary64.fitsInt64 n <;> simp [ObjectsReadBack, outerObjects]
    | float x => simp [rounded, integers, ObjectsReadBack, outerObjects]
  | array _ ih =>
    rw [rounded, roundedItems_eq, array.injEq, map_eq_self_iff, integers,
      forall_integersOfItems_iff, objectsReadBack_array_iff, ← forall₂_and]
    exact forall₂_congr ih
  | object readable =>
    rw [rounded, readable.reread_eq_self_iff, ObjectsReadBack, outerObjects,
      List.forall_mem_singleton]
    simp [integers]
  | _ => simp [rounded, integers, ObjectsReadBack, outerObjects]

theorem Legible.wellFormed {json : Json} (legible : json.Legible) : json.WellFormed := by
  induction legible with
  | null => exact .null
  | bool b => exact .bool b
  | number readable => exact .number readable
  | string s => exact .string s
  | array _ ih => exact .array ih
  | object readable => exact readable.wellFormed

theorem Legible.nesting_le {json : Json} (legible : json.Legible) :
    ∀ object ∈ json.outerObjects, object.nesting ≤ JsonText.depthLimit := by
  induction legible with
  | array _ ih => exact forall_outerObjectsOfItems_iff.2 ih
  | object readable => exact List.forall_mem_singleton.2 readable.nesting_le
  | _ => exact fun _ mem => absurd mem List.not_mem_nil

theorem WellFormed.legible {json : Json} (wellFormed : json.WellFormed)
    (nests : ∀ object ∈ json.outerObjects, object.nesting ≤ JsonText.depthLimit) :
    json.Legible := by
  induction wellFormed with
  | null => exact .null
  | bool b => exact .bool b
  | number readable => exact .number readable
  | string s => exact .string s
  | array _ ih =>
    rw [outerObjects] at nests
    exact .array fun json mem => ih json mem (forall_outerObjectsOfItems_iff.1 nests json mem)
  | object sorted each _ =>
    rw [outerObjects, List.forall_mem_singleton] at nests
    exact .object ((WellFormed.object sorted each).readable nests)

theorem legible_iff {json : Json} :
    json.Legible ↔ json.WellFormed ∧
      ∀ object ∈ json.outerObjects, object.nesting ≤ JsonText.depthLimit :=
  ⟨fun legible => ⟨legible.wellFormed, legible.nesting_le⟩,
    fun ⟨wellFormed, nests⟩ => wellFormed.legible nests⟩

theorem readable_of_parse {text : String} {json : Json} (parsed : parse text = .ok json) :
    json.Readable JsonText.depthLimit := by
  obtain ⟨cs, rest, read⟩ := JsonText.exists_of_readText parsed
  exact JsonText.readable_of_value read

end Json

namespace Value

mutual

theorem legible_toJson (v : Value) : v.toJson.Legible := by
  cases v with
  | null => exact .null
  | boolean b => exact .bool b
  | int n => exact .number (JsonNumber.readable_int64 n)
  | float x =>
    rw [toJson]
    split
    · next finite => exact .number finite
    · exact .null
  | string s => exact .string s
  | list items => exact .array (legible_toJsonItems items)
  | json payload =>
    rw [toJson]
    split
    · next found parsed => exact (Json.readable_of_parse parsed).legible (Nat.le_refl _)
    · exact .null

theorem legible_toJsonItems (items : List Value) : ∀ json ∈ toJsonItems items, json.Legible := by
  cases items with
  | nil => exact fun _ mem => absurd mem List.not_mem_nil
  | cons item items => exact List.forall_mem_cons.2 ⟨legible_toJson item, legible_toJsonItems items⟩

end

theorem toJson_ofJson_of_legible {json : Json} (legible : json.Legible) :
    (ofJson json).toJson = json.rounded := by
  induction legible with
  | null => rfl
  | bool => rfl
  | @number n readable =>
    cases n with
    | float x =>
      rw [ofJson, JsonNumber.toValue, toJson, if_pos (show x.isFinite = true from readable)]
      rfl
    | integer n =>
      rw [Json.rounded, ofJson, JsonNumber.toValue]
      split
      · next fits => rw [toJson, Binary64.toInt_ofInt_of_fits fits]
      · rw [toJson, if_pos (JsonNumber.isFinite_ofInt readable)]
  | string => rfl
  | @array items _ ih =>
    rw [ofJson, ofJsonItems_eq, toJson, toJsonItems_eq, List.map_map, Json.rounded,
      Json.roundedItems_eq]
    exact congrArg Json.array (List.map_congr_left ih)
  | object readable => exact toJson_json readable

theorem toJson_ofJson_eq_self_iff {json : Json} :
    (ofJson json).toJson = json ↔
      json.Legible ∧ (∀ n ∈ json.integers, Binary64.fitsInt64 n = true) ∧ json.ObjectsReadBack := by
  constructor
  · intro same
    have legible : json.Legible := by
      have written := legible_toJson (ofJson json)
      rwa [same] at written
    rw [toJson_ofJson_of_legible legible] at same
    exact ⟨legible, legible.rounded_eq_self_iff.1 same⟩
  · rintro ⟨legible, held⟩
    rw [toJson_ofJson_of_legible legible, legible.rounded_eq_self_iff.2 held]

mutual

/-- The values in a value that are no lists, in order. -/
def leaves : Value → List Value
  | .list items => leavesOfItems items
  | v => [v]

def leavesOfItems : List Value → List Value
  | [] => []
  | item :: items => item.leaves ++ leavesOfItems items

end

mutual

theorem restored_eq_self_iff (v : Value) :
    restored v = v ↔ ∀ leaf ∈ v.leaves, restored leaf = leaf := by
  cases v with
  | list items =>
    rw [restored_list, list.injEq, leaves]
    exact restoredItems_eq_self_iff items
  | _ => simp [leaves]

theorem restoredItems_eq_self_iff (items : List Value) :
    items.map restored = items ↔ ∀ leaf ∈ leavesOfItems items, restored leaf = leaf := by
  cases items with
  | nil => simp [leavesOfItems]
  | cons item items =>
    rw [List.map_cons, List.cons.injEq, leavesOfItems, restored_eq_self_iff item,
      restoredItems_eq_self_iff items, List.forall_mem_append]

end

theorem restored_float_eq_self_iff (x : Binary64) :
    restored (.float x) = .float x ↔ x.isFinite = true := by
  rw [restored_float]
  split <;> simp [*]

theorem ofJson_eq_json {json : Json} {payload : String} (same : ofJson json = .json payload) :
    ∃ members, json = .object members ∧ payload = (Json.object members).compact := by
  cases json with
  | object members => exact ⟨members, rfl, (Value.json.inj same).symm⟩
  | number n =>
    cases n with
    | float x => cases same
    | integer n =>
      rw [ofJson, JsonNumber.toValue] at same
      split at same <;> cases same
  | _ => cases same

theorem restored_json_eq_self_iff (payload : String) :
    restored (.json payload) = .json payload ↔
      ∃ members, payload = (Json.object members).compact ∧
        (Json.object members).Readable JsonText.depthLimit ∧ (Json.object members).ReadsBack := by
  constructor
  · intro same
    obtain ⟨members, written, rfl⟩ := ofJson_eq_json same
    have readable : (Json.object members).Readable JsonText.depthLimit := by
      rw [toJson] at written
      split at written
      · next found parsed =>
        rw [written] at parsed
        exact Json.readable_of_parse parsed
      · cases written
    rw [toJson_json readable] at written
    exact ⟨members, rfl, readable, readable.reread_eq_self_iff.1 written⟩
  · rintro ⟨members, rfl, readable, faithful⟩
    rw [restored, toJson_json readable, readable.reread_eq_self_iff.2 faithful, ofJson]

mutual

theorem list_notMem_leaves (items : List Value) (v : Value) : .list items ∉ v.leaves := by
  cases v with
  | list vs =>
    rw [leaves]
    exact list_notMem_leavesOfItems items vs
  | _ => exact fun mem => nomatch List.mem_singleton.1 mem

theorem list_notMem_leavesOfItems (items vs : List Value) : .list items ∉ leavesOfItems vs := by
  cases vs with
  | nil => exact List.not_mem_nil
  | cons v vs =>
    rw [leavesOfItems, List.mem_append]
    rintro (first | later)
    · exact list_notMem_leaves items v first
    · exact list_notMem_leavesOfItems items vs later

end

/-- Reading and writing JSON are inverse to one another on just these values. A JSON value comes back
from the value of a field iff it can be in memory, its integers outside objects have 64 bits with
sign, and its objects nest no deeper than text may and hold floating-point numbers that read back. A
value of a field comes back from JSON iff its numbers are finite and its payloads are the compact
texts of such objects. -/
theorem json_inverse :
    (∀ json : Json, (ofJson json).toJson = json ↔ json.WellFormed ∧
        (∀ n ∈ json.integers, Binary64.fitsInt64 n = true) ∧
        ∀ object ∈ json.outerObjects, object.nesting ≤ JsonText.depthLimit ∧ object.ReadsBack) ∧
      ∀ v : Value, ofJson v.toJson = v ↔
        (∀ x, .float x ∈ v.leaves → x.isFinite = true) ∧
        ∀ payload, .json payload ∈ v.leaves → ∃ members,
          payload = (Json.object members).compact ∧ (Json.object members).WellFormed ∧
          (Json.object members).nesting ≤ JsonText.depthLimit ∧ (Json.object members).ReadsBack := by
  refine ⟨fun json => ?_, fun v => ?_⟩
  · rw [toJson_ofJson_eq_self_iff, Json.legible_iff, Json.ObjectsReadBack, forall₂_and]
    tauto
  · rw [← restored, restored_eq_self_iff]
    simp only [← and_assoc, ← Json.readable_iff]
    simp only [and_assoc]
    constructor
    · intro same
      exact ⟨fun x leaf => (restored_float_eq_self_iff x).1 (same _ leaf),
        fun payload leaf => (restored_json_eq_self_iff payload).1 (same _ leaf)⟩
    · rintro ⟨floats, payloads⟩ leaf mem
      cases leaf with
      | null => rfl
      | boolean b => rfl
      | int n => exact restored_int n
      | float x => exact (restored_float_eq_self_iff x).2 (floats x mem)
      | string s => rfl
      | list items => exact absurd mem (list_notMem_leaves items v)
      | json payload => exact (restored_json_eq_self_iff payload).2 (payloads payload mem)

end Value

end ImageCatalog
