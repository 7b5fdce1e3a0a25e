import ImageCatalog.Catalog.Document
import ImageCatalog.Proofs.Outcome
import Mathlib.Data.List.Forall2

set_option autoImplicit false

namespace ImageCatalog

namespace Fields

theorem toNat_of_keyOfInt {kind name : String} {n : Int64} {id : RecordId}
    (key : keyOfInt kind name n = .ok id) : (id.toNat : Int) = n.toInt := by
  have below := n.toInt_lt
  rw [keyOfInt] at key
  split at key
  · cases key
  · next positive =>
    obtain rfl := Except.ok.inj key
    rw [UInt64.toNat_ofNat_of_lt' (by rw [UInt64.size]; omega)]
    omega

theorem le_of_keyOfInt {kind name : String} {n : Int64} {id : RecordId}
    (key : keyOfInt kind name n = .ok id) : id ≤ maxRecordId := by
  have below := n.toInt_lt
  have same := toNat_of_keyOfInt key
  rw [UInt64.le_iff_toNat_le]
  change id.toNat ≤ 9223372036854775807
  omega

variable {fields : Fields} {kind name : String}

theorem le_of_requireKey {id : RecordId} (key : fields.requireKey kind name = .ok id) :
    id ≤ maxRecordId := by
  obtain ⟨n, -, key⟩ := bind_eq_ok key
  exact le_of_keyOfInt key

theorem le_of_optionalKey {id : Option RecordId} (key : fields.optionalKey kind name = .ok id) :
    ∀ n ∈ id, n ≤ maxRecordId := by
  intro n mem
  obtain ⟨m, -, read⟩ := bind_eq_ok key
  cases m with
  | none =>
    obtain rfl := Except.ok.inj read
    cases mem
  | some m =>
    obtain ⟨found, number, rfl⟩ := map_eq_ok_iff.1 read
    obtain rfl := Option.some.inj mem
    exact le_of_keyOfInt number

theorem le_of_recordId {id : RecordId} (key : fields.recordId kind = .ok id) :
    id ≤ maxRecordId := by
  obtain ⟨found, given, rfl⟩ := map_eq_ok_iff.1 key
  cases found with
  | none => decide
  | some n => exact le_of_optionalKey given n rfl

end Fields

/-- Whether the number of a record is the one among the fields that it is read from. -/
def FieldRecord.ReadsId (α : Type) [FieldRecord α] : Prop :=
  ∀ (fields : Fields) (r : α), FieldRecord.ofFields fields = .ok r →
    fields.recordId (Record.kind α) = .ok (Record.idOf r)

theorem FieldRecord.ReadsId.le {α : Type} [FieldRecord α] (reads : ReadsId α) {fields : Fields}
    {r : α} (read : FieldRecord.ofFields fields = .ok r) : Record.idOf r ≤ maxRecordId :=
  Fields.le_of_recordId (reads fields r read)

section

variable {fields : Fields}

theorem Image.keys_of_ofFields {image : Image} (read : FieldRecord.ofFields fields = .ok image) :
    fields.recordId "image" = .ok image.id ∧
      fields.optionalKey "image" "license" = .ok image.license := by
  obtain ⟨id, givenId, read⟩ := bind_eq_ok read
  obtain ⟨fileName, -, read⟩ := bind_eq_ok read
  obtain ⟨width, -, read⟩ := bind_eq_ok read
  obtain ⟨height, -, read⟩ := bind_eq_ok read
  obtain ⟨license, givenLicense, read⟩ := bind_eq_ok read
  obtain ⟨flickrUrl, -, read⟩ := bind_eq_ok read
  obtain ⟨cocoUrl, -, read⟩ := bind_eq_ok read
  obtain ⟨dateCaptured, -, read⟩ := bind_eq_ok read
  cases read
  exact ⟨givenId, givenLicense⟩

theorem Annotation.parts_of_ofFields {a : Annotation}
    (read : FieldRecord.ofFields fields = .ok a) :
    (fields.recordId "annotation" = .ok a.id ∧
      fields.requireKey "annotation" "image_id" = .ok a.imageId ∧
      fields.requireKey "annotation" "category_id" = .ok a.categoryId) ∧
    Annotation.readBox fields = .ok a.box ∧
    a.segmentation = (fields.optional? "segmentation").map Value.toJson := by
  obtain ⟨id, givenId, read⟩ := bind_eq_ok read
  obtain ⟨imageId, givenImage, read⟩ := bind_eq_ok read
  obtain ⟨categoryId, givenCategory, read⟩ := bind_eq_ok read
  obtain ⟨box, givenBox, read⟩ := bind_eq_ok read
  obtain ⟨isCrowd, -, read⟩ := bind_eq_ok read
  obtain ⟨area, -, read⟩ := bind_eq_ok read
  cases read
  exact ⟨⟨givenId, givenImage, givenCategory⟩, givenBox, rfl⟩

theorem Image.readsId : FieldRecord.ReadsId Image := by
  intro fields image read
  obtain ⟨id, -⟩ := Image.keys_of_ofFields read
  exact id

theorem Annotation.readsId : FieldRecord.ReadsId Annotation := by
  intro fields a read
  obtain ⟨⟨id, -⟩, -⟩ := Annotation.parts_of_ofFields read
  exact id

theorem Category.readsId : FieldRecord.ReadsId Category := by
  intro fields r read
  obtain ⟨id, given, read⟩ := bind_eq_ok read
  obtain ⟨name, -, read⟩ := bind_eq_ok read
  obtain ⟨supercategory, -, read⟩ := bind_eq_ok read
  cases read
  exact given

theorem License.readsId : FieldRecord.ReadsId License := by
  intro fields r read
  obtain ⟨id, given, read⟩ := bind_eq_ok read
  obtain ⟨name, -, read⟩ := bind_eq_ok read
  obtain ⟨url, -, read⟩ := bind_eq_ok read
  cases read
  exact given

end

namespace Document

variable {α : Type} [FieldRecord α] {sectionName : String} {index : Nat}

def ReadsAs (entry : Json) (r : α) : Prop :=
  ∃ members, entry = .object members ∧ FieldRecord.ofFields (Fields.ofObject members) = .ok r

theorem readsAs_of_decodeEntry {entry : Json} {r : α}
    (result : decodeEntry sectionName index entry = .ok r) : ReadsAs entry r := by
  cases entry with
  | object members =>
    rw [decodeEntry] at result
    split at result
    · next found read =>
      obtain rfl := Except.ok.inj result
      exact ⟨members, rfl, read⟩
    · cases result
  | _ => cases result

theorem forall₂_of_decodeFrom {entries : List Json} {records : List α}
    (result : decodeFrom sectionName index entries = .ok records) :
    List.Forall₂ ReadsAs entries records := by
  induction entries generalizing index records with
  | nil =>
    obtain rfl := Except.ok.inj result
    exact .nil
  | cons entry entries ih =>
    rw [decodeFrom] at result
    split at result
    · cases result
    · next r first =>
      obtain ⟨others, rest, rfl⟩ := map_eq_ok_iff.1 result
      exact .cons (readsAs_of_decodeEntry first) (ih rest)

end Document

end ImageCatalog
