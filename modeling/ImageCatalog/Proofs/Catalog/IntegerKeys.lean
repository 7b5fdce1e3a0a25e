import ImageCatalog.Proofs.Catalog.Keys
import ImageCatalog.Proofs.Json.Restoring
import ImageCatalog.Proofs.Number.Integers

/-! Integers that entries give as keys. JSON has integers that no key can be: a negative one is
refused, while one past the bound is read as a floating-point number and cut to the bound. So a key
is the integer of its entry iff that one is within the bound, and all the others share one key. -/

set_option autoImplicit false

namespace ImageCatalog

/-- The member of a name in an object; of members of one name the last one counts. -/
def Json.member? (name : String) : Json → Option Json
  | .object members => (members.reverse.find? fun member => member.1 == name).map Prod.snd
  | _ => none

def Document.integerAt? (entries : List Json) (name : String) (i : Nat) : Option Int :=
  match entries[i]?.bind (Json.member? name) with
  | some (.number (.integer n)) => some n
  | _ => none

namespace Dictionary

theorem find?_collect {α : Type} (name : String) (entries : List (String × α)) :
    find? name (collect entries) =
      (entries.reverse.find? fun entry => entry.1 == name).map Prod.snd := by
  -- What was collected before is found only where none of the entries has the name.
  suffices ∀ found : List (String × α),
      find? name (entries.foldl (fun found entry => insert entry.1 entry.2 found) found) =
        ((entries.reverse.find? fun entry => entry.1 == name).map Prod.snd).or
          (find? name found) by
    rw [collect, this []]
    exact Option.or_none
  induction entries with
  | nil => exact fun found => rfl
  | cons head entries ih =>
    intro found
    rw [List.foldl_cons, ih, find?_insert, List.reverse_cons, List.find?_append, Option.map_or,
      Option.or_assoc]
    congr 1
    by_cases same : head.1 = name <;> simp [same]

end Dictionary

theorem Fields.get?_ofObject (members : List (String × Json)) (name : String) :
    (Fields.ofObject members).get? name =
      ((Json.object members).member? name).map Value.ofJson := by
  rw [Fields.get?, Fields.ofObject, Fields.ofList, Dictionary.find?_collect, ← List.map_reverse,
    List.find?_map, Json.member?, Option.map_map, Option.map_map]
  rfl

/-- An integer past the bound is read as a floating-point number, and that is cut to the bound. -/
theorem JsonNumber.asInt?_toValue {n : Int} (low : -2 ^ 63 ≤ n) (high : n < 2 ^ 64) :
    ∃ m : Int64, (integer n).toValue.asInt? = some m ∧ m.toInt = min n maxRecordId.toNat := by
  have bound : (maxRecordId.toNat : Int) = 2 ^ 63 - 1 := by decide
  rw [bound, toValue]
  by_cases fits : Binary64.fitsInt64 n = true
  · have most := (decide_eq_true_iff.1 fits).2
    rw [Int64.toInt_maxValue] at most
    rw [if_pos fits]
    exact ⟨_, rfl, by rw [Binary64.toInt_ofInt_of_fits fits]; omega⟩
  · have past : 2 ^ 63 ≤ n := by
      by_contra within
      apply fits
      rw [Binary64.fitsInt64, decide_eq_true_iff, Int64.toInt_minValue, Int64.toInt_maxValue]
      omega
    rw [if_neg fits, Value.asInt?, if_pos (isFinite_ofInt ⟨low, high⟩),
      Binary64.toInt64_ofInt_of_past past high]
    exact ⟨_, rfl, by rw [Int64.toInt_maxValue]; omega⟩

/-- The keys that records give as integers, by their names in an entry. -/
inductive IntegerKey : {α : Type} → [FieldRecord α] → String → (α → Option RecordId) → Prop
  | imageId : IntegerKey "id" fun image : Image => some image.id
  | imageLicense : IntegerKey "license" Image.license
  | annotationId : IntegerKey "id" fun a : Annotation => some a.id
  | annotationImage : IntegerKey "image_id" fun a : Annotation => some a.imageId
  | annotationCategory : IntegerKey "category_id" fun a : Annotation => some a.categoryId
  | categoryId : IntegerKey "id" fun category : Category => some category.id
  | licenseId : IntegerKey "id" fun license : License => some license.id

namespace Fields

variable {fields : Fields} {kind name : String} {v : Value} {m : Int64}

theorem requireInt_of_optional? (given : fields.optional? name = some v)
    (integer : v.asInt? = some m) : fields.requireInt kind name = .ok m := by
  rw [requireInt, requireAs, require, given]
  dsimp only [Except.bind]
  rw [readAs, integer]

theorem optionalInt_of_optional? (given : fields.optional? name = some v)
    (integer : v.asInt? = some m) : fields.optionalInt kind name = .ok (some m) := by
  rw [optionalInt, optionalAs, given]
  dsimp only
  rw [readAs, integer]
  rfl

theorem toNat_of_requireKey (given : fields.optional? name = some v)
    (integer : v.asInt? = some m) {id : RecordId}
    (key : fields.requireKey kind name = .ok id) : (id.toNat : Int) = m.toInt := by
  rw [requireKey, requireInt_of_optional? given integer] at key
  exact toNat_of_keyOfInt key

theorem toNat_of_optionalKey (given : fields.optional? name = some v)
    (integer : v.asInt? = some m) {id : Option RecordId}
    (key : fields.optionalKey kind name = .ok id) :
    ∃ k, id = some k ∧ (k.toNat : Int) = m.toInt := by
  rw [optionalKey, optionalInt_of_optional? given integer] at key
  obtain ⟨k, read, rfl⟩ := map_eq_ok_iff.1 key
  exact ⟨k, rfl, toNat_of_keyOfInt read⟩

theorem toNat_of_recordId (given : fields.optional? "id" = some v)
    (integer : v.asInt? = some m) {id : RecordId} (key : fields.recordId kind = .ok id) :
    (id.toNat : Int) = m.toInt := by
  obtain ⟨found, read, rfl⟩ := map_eq_ok_iff.1 key
  obtain ⟨k, rfl, same⟩ := toNat_of_optionalKey given integer read
  exact same

end Fields

theorem IntegerKey.toNat_of_ofFields {α : Type} [FieldRecord α] {name : String}
    {key : α → Option RecordId} (listed : IntegerKey name key) {fields : Fields} {r : α}
    (read : FieldRecord.ofFields fields = .ok r) {v : Value} {m : Int64}
    (given : fields.optional? name = some v) (integer : v.asInt? = some m) :
    ∃ k, key r = some k ∧ (k.toNat : Int) = m.toInt := by
  cases listed with
  | imageId =>
    obtain ⟨id, -⟩ := Image.keys_of_ofFields read
    exact ⟨_, rfl, Fields.toNat_of_recordId given integer id⟩
  | imageLicense =>
    obtain ⟨-, license⟩ := Image.keys_of_ofFields read
    exact Fields.toNat_of_optionalKey given integer license
  | annotationId =>
    obtain ⟨⟨id, -, -⟩, -⟩ := Annotation.parts_of_ofFields read
    exact ⟨_, rfl, Fields.toNat_of_recordId given integer id⟩
  | annotationImage =>
    obtain ⟨⟨-, image, -⟩, -⟩ := Annotation.parts_of_ofFields read
    exact ⟨_, rfl, Fields.toNat_of_requireKey given integer image⟩
  | annotationCategory =>
    obtain ⟨⟨-, -, category⟩, -⟩ := Annotation.parts_of_ofFields read
    exact ⟨_, rfl, Fields.toNat_of_requireKey given integer category⟩
  | categoryId =>
    have id := Category.readsId fields _ read
    exact ⟨_, rfl, Fields.toNat_of_recordId given integer id⟩
  | licenseId =>
    have id := License.readsId fields _ read
    exact ⟨_, rfl, Fields.toNat_of_recordId given integer id⟩

def Table.keyAt? {α : Type} [Record α] (t : Table α) (key : α → Option RecordId) (i : Nat) :
    Option RecordId :=
  t.records[i]?.bind key

namespace Document

variable {α : Type} [FieldRecord α] {name : String} {key : α → Option RecordId}

private theorem optional?_of_member? {members : List (String × Json)} {n : Int}
    (given : (Json.object members).member? name = some (.number (.integer n))) :
    (Fields.ofObject members).optional? name = some (JsonNumber.integer n).toValue := by
  rw [Fields.optional?, Fields.get?_ofObject, given, Option.map_some, Value.ofJson,
    Option.filter_some, if_pos]
  rw [JsonNumber.toValue]
  split <;> rfl

private theorem exists_of_integerAt? {entries : List Json} {i : Nat} {n : Int}
    (given : integerAt? entries name i = some n) :
    ∃ entry, entries[i]? = some entry ∧ entry.member? name = some (.number (.integer n)) := by
  rw [integerAt?] at given
  split at given
  · next found =>
    obtain rfl := Option.some.inj given
    exact Option.bind_eq_some_iff.1 found
  · cases given

private theorem exists_of_getElem? {entries : List Json} {records : List α}
    (pairs : List.Forall₂ ReadsAs entries records) {i : Nat} {entry : Json}
    (given : entries[i]? = some entry) : ∃ r, records[i]? = some r ∧ ReadsAs entry r := by
  obtain ⟨inside, rfl⟩ := List.getElem?_eq_some_iff.1 given
  have inside' : i < records.length := pairs.length_eq ▸ inside
  exact ⟨records[i], List.getElem?_eq_getElem inside', pairs.get inside inside'⟩

theorem exists_keyAt? (listed : IntegerKey name key) {sectionName : String} {entries : List Json}
    {policy : IdPolicy} {t : Table α} (decoded : decode sectionName entries policy = .ok t)
    {i : Nat} {n : Int} (given : integerAt? entries name i = some n) (low : -2 ^ 63 ≤ n)
    (high : n < 2 ^ 64) :
    ∃ k, t.keyAt? key i = some k ∧ (k.toNat : Int) = min n maxRecordId.toNat := by
  obtain ⟨records, found, rfl⟩ := map_eq_ok_iff.1 decoded
  obtain ⟨entry, here, member⟩ := exists_of_integerAt? given
  obtain ⟨r, there, members, rfl, read⟩ := exists_of_getElem? (forall₂_of_decodeFrom found) here
  obtain ⟨m, integer, cut⟩ := JsonNumber.asInt?_toValue low high
  obtain ⟨k, own, same⟩ := listed.toNat_of_ofFields read (optional?_of_member? member) integer
  exact ⟨k, Option.bind_eq_some_iff.2 ⟨r, there, own⟩, same.trans cut⟩

/-- Where entries are read as records, every integer key is the integer of its entry, or the bound
in place of what lies past it. So records share a key iff their entries give one integer or both
give one that is not below the bound. -/
theorem decode_integerKeys (listed : IntegerKey name key) {sectionName : String}
    {entries : List Json} {policy : IdPolicy} {t : Table α}
    (decoded : decode sectionName entries policy = .ok t) {i : Nat} {n : Int}
    (given : integerAt? entries name i = some n) (low : -2 ^ 63 ≤ n) (high : n < 2 ^ 64) :
    (∃ k, t.keyAt? key i = some k ∧ (k.toNat : Int) = min n maxRecordId.toNat) ∧
      ∀ j m, integerAt? entries name j = some m → -2 ^ 63 ≤ m → m < 2 ^ 64 →
        (t.keyAt? key i = t.keyAt? key j ↔
          min n maxRecordId.toNat = min m maxRecordId.toNat) := by
  obtain ⟨k, own, same⟩ := exists_keyAt? listed decoded given low high
  refine ⟨⟨k, own, same⟩, fun j m given' low' high' => ?_⟩
  obtain ⟨k', own', same'⟩ := exists_keyAt? listed decoded given' low' high'
  rw [own, own', Option.some.injEq, ← UInt64.toNat_inj, ← same, ← same', Int.natCast_inj]

def categoryEntries (m n : Int) : List Json := [
  .object [("id", .number (.integer m)), ("name", .string "a")],
  .object [("id", .number (.integer n)), ("name", .string "b")]]

/-- The first number, which is past the bound, becomes the bound; the other one is kept. -/
theorem decode_integerKeys_past :
    ∃ t : Table Category, decode "categories" (categoryEntries (2 ^ 63) 7) .strict = .ok t ∧
      (∃ k, t.keyAt? (fun category => some category.id) 0 = some k ∧
        (k.toNat : Int) = min (2 ^ 63) maxRecordId.toNat) ∧
      t.keyAt? (fun category => some category.id) 0 ≠
        t.keyAt? (fun category => some category.id) 1 := by
  have read : (decodeFrom "categories" 0 (categoryEntries (2 ^ 63) 7) :
      Except EntryFault (List Category)) = .ok [⟨maxRecordId, "a", none⟩, ⟨7, "b", none⟩] := by
    decide +kernel
  have decoded := congrArg (Except.map fun records => (⟨records, .strict⟩ : Table Category)) read
  obtain ⟨kept, shared⟩ :=
    @decode_integerKeys _ _ _ _ .categoryId _ _ _ _ decoded 0 (2 ^ 63) rfl (by decide) (by decide)
  exact ⟨_, decoded, kept, mt (shared 1 7 rfl (by decide) (by decide)).1 (by decide)⟩

/-- Two entries with different numbers, both past the bound, are read as records that share one. -/
theorem decode_shared_key :
    integerAt? (categoryEntries (2 ^ 63) (2 ^ 63 + 1)) "id" 0 = some (2 ^ 63) ∧
      integerAt? (categoryEntries (2 ^ 63) (2 ^ 63 + 1)) "id" 1 = some (2 ^ 63 + 1) ∧
      (decode "categories" (categoryEntries (2 ^ 63) (2 ^ 63 + 1)) .strict :
        Except EntryFault (Table Category)).map Table.records =
          .ok [⟨maxRecordId, "a", none⟩, ⟨maxRecordId, "b", none⟩] := by
  decide +kernel

end Document

end ImageCatalog
