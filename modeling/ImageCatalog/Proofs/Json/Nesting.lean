import ImageCatalog.Proofs.Json.Accepted

set_option autoImplicit false

namespace ImageCatalog

namespace Json

mutual

/-- The number of arrays and objects, one inside the other, that the innermost part lies in. -/
def nesting : Json → Nat
  | .array items => nestingOfItems items + 1
  | .object members => nestingOfMembers members + 1
  | _ => 0

def nestingOfItems : List Json → Nat
  | [] => 0
  | item :: items => max item.nesting (nestingOfItems items)

def nestingOfMembers : List (String × Json) → Nat
  | [] => 0
  | (_, value) :: members => max value.nesting (nestingOfMembers members)

end

theorem nestingOfItems_le_iff {items : List Json} {depth : Nat} :
    nestingOfItems items ≤ depth ↔ ∀ json ∈ items, json.nesting ≤ depth := by
  induction items with
  | nil => simp [nestingOfItems]
  | cons item items ih => rw [nestingOfItems, Nat.max_le, ih, List.forall_mem_cons]

theorem nestingOfMembers_le_iff {members : List (String × Json)} {depth : Nat} :
    nestingOfMembers members ≤ depth ↔ ∀ member ∈ members, member.2.nesting ≤ depth := by
  induction members with
  | nil => simp [nestingOfMembers]
  | cons member members ih => rw [nestingOfMembers, Nat.max_le, ih, List.forall_mem_cons]

/-- What a value can be in memory, however deep it nests: every number is an integer of 64 bits,
with or without sign, or a finite word, and the members of an object are in order. -/
inductive WellFormed : Json → Prop
  | null : WellFormed .null
  | bool (b : Bool) : WellFormed (.bool b)
  | number {n : JsonNumber} : n.Readable → WellFormed (.number n)
  | string (s : String) : WellFormed (.string s)
  | array {items : List Json} : (∀ json ∈ items, WellFormed json) → WellFormed (.array items)
  | object {members : List (String × Json)} :
      Dictionary.Sorted members → (∀ member ∈ members, WellFormed member.2) →
      WellFormed (.object members)

theorem Readable.wellFormed {depth : Nat} {json : Json} (readable : json.Readable depth) :
    json.WellFormed := by
  induction readable with
  | null => exact .null
  | bool _ b => exact .bool b
  | number _ readable => exact .number readable
  | string _ s => exact .string s
  | array _ ih => exact .array ih
  | object sorted _ ih => exact .object sorted ih

theorem Readable.nesting_le {depth : Nat} {json : Json} (readable : json.Readable depth) :
    json.nesting ≤ depth := by
  induction readable with
  | array _ ih =>
    rw [nesting]
    exact Nat.succ_le_succ (nestingOfItems_le_iff.2 ih)
  | object _ _ ih =>
    rw [nesting]
    exact Nat.succ_le_succ (nestingOfMembers_le_iff.2 ih)
  | _ => exact Nat.zero_le _

theorem WellFormed.readable {json : Json} (wellFormed : json.WellFormed) {depth : Nat}
    (nests : json.nesting ≤ depth) : json.Readable depth := by
  induction wellFormed generalizing depth with
  | null => exact .null depth
  | bool b => exact .bool depth b
  | number readable => exact .number depth readable
  | string s => exact .string depth s
  | array _ ih =>
    rw [nesting] at nests
    obtain ⟨inner, rfl⟩ := Nat.exists_eq_add_one_of_ne_zero (Nat.ne_zero_of_lt nests)
    have each := nestingOfItems_le_iff.1 (Nat.le_of_succ_le_succ nests)
    exact .array fun json mem => ih json mem (each json mem)
  | object sorted _ ih =>
    rw [nesting] at nests
    obtain ⟨inner, rfl⟩ := Nat.exists_eq_add_one_of_ne_zero (Nat.ne_zero_of_lt nests)
    have each := nestingOfMembers_le_iff.1 (Nat.le_of_succ_le_succ nests)
    exact .object sorted fun member mem => ih member mem (each member mem)

theorem readable_iff {depth : Nat} {json : Json} :
    json.Readable depth ↔ json.WellFormed ∧ json.nesting ≤ depth :=
  ⟨fun readable => ⟨readable.wellFormed, readable.nesting_le⟩,
    fun ⟨wellFormed, nests⟩ => wellFormed.readable nests⟩

/-- An empty container counts as much as a full one. -/
example : (Json.array [.null, .object [("counts", .array [])]]).nesting = 3 := by decide

end Json

end ImageCatalog
