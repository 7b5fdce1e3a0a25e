import ImageCatalog.Proofs.Catalog.Encoding
import ImageCatalog.Proofs.Catalog.Keys
import ImageCatalog.Proofs.Json.Inverse

/-! Records that are read from the fields they write. Images, categories and licenses come back as
they were, from whatever fields they were read in the first place. So do annotations, but for the
segmentation: one that is null comes back absent, an integer past the signed 64 bits comes back as a
floating-point number unless it stands in an object, and an object comes back as its text is
read. -/

set_option autoImplicit false

namespace ImageCatalog

namespace Value

theorem isNull_ofJson {json : Json} (present : json ≠ .null) : (ofJson json).isNull = false := by
  cases json with
  | null => exact absurd rfl present
  | number n =>
    cases n with
    | float x => rfl
    | integer n =>
      rw [ofJson, JsonNumber.toValue]
      split <;> rfl
  | _ => rfl

end Value

namespace Annotation

/-- What is read of the fields that an annotation writes. -/
def reread (a : Annotation) : Annotation :=
  { a with
    segmentation :=
      match a.segmentation with
      | none | some .null => none
      | some json => some json.rounded }

theorem reread_eq_self_iff {a : Annotation} (legible : ∀ json ∈ a.segmentation, json.Legible) :
    a.reread = a ↔ ∀ json ∈ a.segmentation,
      json ≠ .null ∧ (∀ n ∈ json.integers, Binary64.fitsInt64 n = true) ∧ json.ObjectsReadBack := by
  obtain ⟨id, imageId, categoryId, box, isCrowd, segmentation, area⟩ := a
  cases segmentation with
  | none => simp [reread]
  | some json =>
    simp only [Option.mem_some_iff, forall_eq', ← (legible json rfl).rounded_eq_self_iff]
    cases json <;> simp [reread]

theorem rereadSegmentation_eq {a : Annotation} (legible : ∀ json ∈ a.segmentation, json.Legible) :
    a.rereadSegmentation = a.reread.segmentation := by
  rw [rereadSegmentation, reread]
  cases segmentation : a.segmentation with
  | none => rfl
  | some json =>
    by_cases null : json = .null
    · subst null
      rfl
    · rw [Option.map_some, Option.filter_some, Value.isNull_ofJson null, Bool.not_false, if_pos rfl,
        Option.map_some, Value.toJson_ofJson_of_legible (legible json segmentation)]
      cases json with
      | null => exact absurd rfl null
      | _ => rfl

theorem legible_of_read {fields : Fields} {a : Annotation}
    (read : FieldRecord.ofFields fields = .ok a) : ∀ json ∈ a.segmentation, json.Legible := by
  obtain ⟨-, -, segmentation⟩ := Annotation.parts_of_ofFields read
  intro json given
  rw [segmentation] at given
  obtain ⟨v, -, rfl⟩ := Option.map_eq_some_iff.1 given
  exact v.legible_toJson

theorem ofFields_toFields_of_read {fields : Fields} {a : Annotation}
    (read : FieldRecord.ofFields fields = .ok a) :
    FieldRecord.ofFields (FieldRecord.toFields a) = .ok a.reread := by
  obtain ⟨⟨id, imageId, categoryId⟩, -, -⟩ := Annotation.parts_of_ofFields read
  have result := ofFields_of_hold (Fields.le_of_recordId id) (Fields.le_of_requireKey imageId)
    (Fields.le_of_requireKey categoryId) (Record.hold_allFields a)
  rw [rereadSegmentation_eq (legible_of_read read)] at result
  exact result

end Annotation

namespace FieldRecord

/-- Whatever fields a record was read from, it is read from the fields that it writes: an image, a
category or a license as it was, an annotation with the segmentation that comes back. That is the
same one iff it is not null, its integers outside objects have 64 bits with sign and the
floating-point numbers in its objects read back. -/
theorem ofFields_toFields (fields : Fields) :
    (∀ image : Image, ofFields fields = .ok image → ofFields (toFields image) = .ok image) ∧
      (∀ category : Category, ofFields fields = .ok category →
        ofFields (toFields category) = .ok category) ∧
      (∀ license : License, ofFields fields = .ok license →
        ofFields (toFields license) = .ok license) ∧
      ∀ a : Annotation, ofFields fields = .ok a →
        ofFields (toFields a) = .ok a.reread ∧
          (a.reread = a ↔ ∀ json ∈ a.segmentation, json ≠ .null ∧
            (∀ n ∈ json.integers, Binary64.fitsInt64 n = true) ∧ json.ObjectsReadBack) := by
  refine ⟨fun image read => ?_, fun category read => ?_, fun license read => ?_, fun a read => ?_⟩
  · obtain ⟨id, license⟩ := Image.keys_of_ofFields read
    exact Image.ofFields_of_hold ⟨Fields.le_of_recordId id, Fields.le_of_optionalKey license⟩
      (Record.hold_allFields image)
  · exact Category.ofFields_of_hold (Category.readsId.le read) (Record.hold_allFields category)
  · exact License.ofFields_of_hold (License.readsId.le read) (Record.hold_allFields license)
  · have legible := Annotation.legible_of_read read
    refine ⟨?_, Annotation.reread_eq_self_iff legible⟩
    exact Annotation.ofFields_toFields_of_read read

/-- Fields of all four kinds. Numbers stand as texts and fractions, and the segmentation lists a
polygon and a text that is not JSON. -/
def coerced : Fields := .ofList [
  ("id", .string " 7 "), ("image_id", .float ⟨0x400e000000000000⟩), ("category_id", .string "+18"),
  ("bbox", .list [.int 1, .float (.quietNaN true), .int 3, .float (.infinity false)]),
  ("area", .string "-nan"),
  ("segmentation", .list [.list [.float ⟨0x3ff8000000000000⟩, .int 3], .json "\x7b"]),
  ("file_name", .int 12), ("license", .string "4"), ("name", .boolean true)]

theorem coerced_ofFields_toFields :
    ∃ (image : Image) (category : Category) (license : License) (a : Annotation),
      ofFields coerced = .ok image ∧ ofFields (toFields image) = .ok image ∧
      ofFields coerced = .ok category ∧ ofFields (toFields category) = .ok category ∧
      ofFields coerced = .ok license ∧ ofFields (toFields license) = .ok license ∧
      ofFields coerced = .ok a ∧ a.segmentation = some (.array [
        .array [.number (.float ⟨0x3ff8000000000000⟩), .number (.integer 3)], .null]) ∧
      ofFields (toFields a) = .ok a := by
  obtain ⟨images, categories, licenses, annotations⟩ := ofFields_toFields coerced
  obtain ⟨a, read, segmentation⟩ : ∃ a : Annotation, ofFields coerced = .ok a ∧
      a.segmentation = some (.array [
        .array [.number (.float ⟨0x3ff8000000000000⟩), .number (.integer 3)], .null]) :=
    ⟨_, rfl, rfl⟩
  obtain ⟨again, same⟩ := annotations a read
  have kept : a.reread = a := by
    refine same.2 fun json given => ?_
    rw [segmentation] at given
    cases given
    exact ⟨nofun, by decide, by decide⟩
  rw [kept] at again
  exact ⟨_, _, _, a, rfl, images _ rfl, rfl, categories _ rfl, rfl, licenses _ rfl, read,
    segmentation, again⟩

/-- An annotation whose segmentation is a text that is not JSON. -/
def torn : Fields := .ofList [
  ("id", .int 1), ("image_id", .int 1), ("category_id", .int 1),
  ("bbox", .list [.int 0, .int 0, .int 1, .int 1]), ("segmentation", .json "\x7b")]

/-- The null in its place is lost when the annotation is written to fields. -/
theorem torn_segmentation_lost :
    ∃ a b : Annotation, ofFields torn = .ok a ∧ a.segmentation = some .null ∧
      ofFields (toFields a) = .ok b ∧ b.segmentation = none :=
  ⟨_, _, rfl, rfl, rfl, rfl⟩

end FieldRecord

end ImageCatalog
