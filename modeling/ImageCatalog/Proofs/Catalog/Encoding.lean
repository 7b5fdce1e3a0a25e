import ImageCatalog.Catalog.Document
import ImageCatalog.Proofs.Json.Restoring
import ImageCatalog.Proofs.Value.Keys

set_option autoImplicit false

namespace ImageCatalog

namespace Record

variable {α : Type} [Record α]

private theorem find?_foldl (r : α) (name : String) (names : List String)
    (found : List (String × Value)) :
    Dictionary.find? name ((names.filterMap fun key => (field? r key).map fun v => (key, v)).foldl
        (fun found entry => Dictionary.insert entry.1 entry.2 found) found) =
      if name ∈ names then (field? r name).or (Dictionary.find? name found)
      else Dictionary.find? name found := by
  induction names generalizing found with
  | nil => simp
  | cons key names ih =>
    cases value : field? r key with
    | none =>
      rw [List.filterMap_cons, value]
      simp only [Option.map_none, ih, List.mem_cons]
      by_cases same : name = key
      · subst same
        simp [value]
      · simp [same]
    | some v =>
      rw [List.filterMap_cons, value]
      simp only [Option.map_some, List.foldl_cons, ih, List.mem_cons, Dictionary.find?_insert]
      by_cases same : name = key
      · subst same
        simp [value]
      · simp [same, Ne.symm same]

theorem get?_allFields (r : α) {name : String} (listed : name ∈ fieldNames α) :
    (allFields r).get? name = field? r name := by
  have found := find?_foldl r name (fieldNames α) []
  rw [if_pos listed] at found
  exact found.trans Option.or_none

end Record

def Fields.Hold {α : Type} [Record α] (fields : Fields) (r : α) : Prop :=
  ∀ name ∈ Record.fieldNames α, fields.get? name = Record.field? r name

theorem Record.hold_allFields {α : Type} [Record α] (r : α) : (allFields r).Hold r :=
  fun _ listed => get?_allFields r listed

theorem Record.hold_restored {α : Type} [Record α] {r r' : α}
    (each : ∀ name ∈ fieldNames α, (field? r name).map Value.restored = field? r' name) :
    (allFields r).restored.Hold r' := by
  intro name listed
  rw [Fields.get?_restored, get?_allFields r listed, each name listed]

namespace Value

@[simp] theorem restored_string (s : String) : restored (.string s) = .string s := rfl

@[simp] theorem restored_ofString? (s : Option String) : (ofString? s).restored = ofString? s := by
  cases s <;> rfl

@[simp] theorem restored_ofInt64? (n : Option Int64) : (ofInt64? n).restored = ofInt64? n := by
  cases n with
  | none => rfl
  | some n => exact restored_int n

theorem restored_ofUInt64 {n : RecordId} (bound : n ≤ maxRecordId) :
    (ofUInt64 n).restored = ofUInt64 n := by
  rw [ofUInt64_of_le bound, restored_int]

theorem restored_ofUInt64? {n : Option RecordId} (bound : ∀ k ∈ n, k ≤ maxRecordId) :
    (ofUInt64? n).restored = ofUInt64? n := by
  cases n with
  | none => rfl
  | some n => exact restored_ofUInt64 (bound n rfl)

theorem restored_ofFloat? (x : Option Binary64) :
    (ofFloat? x).restored = ofFloat? (x.filter Binary64.isFinite) := by
  cases x with
  | none => rfl
  | some x =>
    rw [Option.filter_some]
    exact (restored_float x).trans (by cases x.isFinite <;> rfl)

theorem restored_floats {xs : List Binary64} (finite : ∀ x ∈ xs, x.isFinite = true) :
    (Value.list (xs.map .float)).restored = .list (xs.map .float) := by
  have each : ∀ x ∈ xs, (restored ∘ Value.float) x = Value.float x := by
    intro x mem
    rw [Function.comp_apply, restored_float, if_pos (finite x mem)]
  rw [restored_list, List.map_map, List.map_congr_left each]

end Value

namespace Fields

variable {fields : Fields} {name : String}

theorem optional?_of_get? {v : Value} (given : fields.get? name = some v)
    (present : v.isNull = false) : fields.optional? name = some v := by
  rw [optional?, given, Option.filter_some, present]
  rfl

theorem optional?_of_null (given : fields.get? name = some .null) :
    fields.optional? name = none := by
  rw [optional?, given]
  rfl

theorem requireString_of (kind : String) {s : String} (given : fields.get? name = some (.string s)) :
    fields.requireString kind name = .ok s := by
  rw [requireString, requireAs, require, optional?_of_get? given rfl]
  rfl

theorem optionalString_of (kind : String) {s : Option String}
    (given : fields.get? name = some (.ofString? s)) : fields.optionalString kind name = .ok s := by
  cases s with
  | none => rw [optionalString, optionalAs, optional?_of_null given]
  | some s =>
    rw [optionalString, optionalAs, optional?_of_get? given rfl]
    rfl

theorem optionalInt_of (kind : String) {n : Option Int64}
    (given : fields.get? name = some (.ofInt64? n)) : fields.optionalInt kind name = .ok n := by
  cases n with
  | none => rw [optionalInt, optionalAs, optional?_of_null given]
  | some n =>
    rw [optionalInt, optionalAs, optional?_of_get? given rfl]
    rfl

theorem optionalFloat_of (kind : String) {x : Option Binary64}
    (given : fields.get? name = some (.ofFloat? x)) : fields.optionalFloat kind name = .ok x := by
  cases x with
  | none => rw [optionalFloat, optionalAs, optional?_of_null given]
  | some x =>
    rw [optionalFloat, optionalAs, optional?_of_get? given rfl]
    rfl

theorem keyOfInt_ofNat (kind name : String) {n : RecordId} (bound : n ≤ maxRecordId) :
    keyOfInt kind name (Int64.ofNat n.toNat) = .ok n := by
  have below : n.toNat < 2 ^ 63 := Nat.lt_succ_of_le (UInt64.le_iff_toNat_le.1 bound)
  have number : (Int64.ofNat n.toNat).toInt = n.toNat := Int64.toInt_ofNat_of_lt below
  rw [keyOfInt, number, if_neg (by omega), Int.toNat_natCast, UInt64.ofNat_toNat]

theorem optionalKey_of (kind : String) {n : Option RecordId} (bound : ∀ k ∈ n, k ≤ maxRecordId)
    (given : fields.get? name = some (.ofUInt64? n)) : fields.optionalKey kind name = .ok n := by
  cases n with
  | none =>
    rw [optionalKey, optionalInt, optionalAs, optional?_of_null given]
    rfl
  | some n =>
    have value := Value.ofUInt64_of_le (bound n rfl)
    have read : fields.optionalInt kind name = .ok (some (Int64.ofNat n.toNat)) :=
      optionalInt_of kind (given.trans (congrArg some value))
    have key := keyOfInt_ofNat kind name (bound n rfl)
    simp only [optionalKey, read, Except.bind, key, Except.map]

theorem requireKey_of (kind : String) {n : RecordId} (bound : n ≤ maxRecordId)
    (given : fields.get? name = some (.ofUInt64 n)) : fields.requireKey kind name = .ok n := by
  rw [Value.ofUInt64_of_le bound] at given
  have read : fields.requireInt kind name = .ok (Int64.ofNat n.toNat) := by
    rw [requireInt, requireAs, require, optional?_of_get? given rfl]
    rfl
  rw [requireKey, read, Except.bind, keyOfInt_ofNat kind name bound]

theorem recordId_of (kind : String) {n : RecordId} (bound : n ≤ maxRecordId)
    (given : fields.get? "id" = some (.ofUInt64 n)) : fields.recordId kind = .ok n := by
  have read := optionalKey_of kind (n := some n) (fun k mem => Option.some.inj mem ▸ bound)
    given
  rw [recordId, read]
  rfl

end Fields

structure Image.Storable (image : Image) : Prop where
  id : image.id ≤ maxRecordId
  license : ∀ n ∈ image.license, n ≤ maxRecordId

theorem Image.ofFields_of_hold {fields : Fields} {image : Image} (storable : image.Storable)
    (hold : fields.Hold image) : FieldRecord.ofFields fields = .ok image := by
  have id := Fields.recordId_of "image" storable.id (hold "id" (by decide))
  have fileName := Fields.requireString_of "image" (hold "file_name" (by decide))
  have width := Fields.optionalInt_of "image" (hold "width" (by decide))
  have height := Fields.optionalInt_of "image" (hold "height" (by decide))
  have license := Fields.optionalKey_of "image" storable.license (hold "license" (by decide))
  have flickrUrl := Fields.optionalString_of "image" (hold "flickr_url" (by decide))
  have cocoUrl := Fields.optionalString_of "image" (hold "coco_url" (by decide))
  have dateCaptured := Fields.optionalString_of "image" (hold "date_captured" (by decide))
  change Image.ofFields fields = .ok image
  simp only [Image.ofFields, id, fileName, width, height, license, flickrUrl, cocoUrl, dateCaptured,
    bind, Except.bind, pure, Except.pure]

theorem Image.ofFields_restored {image : Image} (storable : image.Storable) :
    FieldRecord.ofFields (FieldRecord.toFields image).restored = .ok image := by
  refine ofFields_of_hold storable (Record.hold_restored ?_)
  simp [Record.fieldNames, Record.field?, Image.field?, Value.restored_ofUInt64 storable.id,
    Value.restored_ofUInt64? storable.license]

theorem Category.ofFields_of_hold {fields : Fields} {category : Category}
    (bound : category.id ≤ maxRecordId) (hold : fields.Hold category) :
    FieldRecord.ofFields fields = .ok category := by
  have id := Fields.recordId_of "category" bound (hold "id" (by decide))
  have name := Fields.requireString_of "category" (hold "name" (by decide))
  have supercategory := Fields.optionalString_of "category" (hold "supercategory" (by decide))
  change Category.ofFields fields = .ok category
  simp only [Category.ofFields, id, name, supercategory, bind, Except.bind, pure, Except.pure]

theorem Category.ofFields_restored {category : Category} (bound : category.id ≤ maxRecordId) :
    FieldRecord.ofFields (FieldRecord.toFields category).restored = .ok category := by
  refine ofFields_of_hold bound (Record.hold_restored ?_)
  simp [Record.fieldNames, Record.field?, Category.field?, Value.restored_ofUInt64 bound]

theorem License.ofFields_of_hold {fields : Fields} {license : License}
    (bound : license.id ≤ maxRecordId) (hold : fields.Hold license) :
    FieldRecord.ofFields fields = .ok license := by
  have id := Fields.recordId_of "license" bound (hold "id" (by decide))
  have name := Fields.requireString_of "license" (hold "name" (by decide))
  have url := Fields.optionalString_of "license" (hold "url" (by decide))
  change License.ofFields fields = .ok license
  simp only [License.ofFields, id, name, url, bind, Except.bind, pure, Except.pure]

theorem License.ofFields_restored {license : License} (bound : license.id ≤ maxRecordId) :
    FieldRecord.ofFields (FieldRecord.toFields license).restored = .ok license := by
  refine ofFields_of_hold bound (Record.hold_restored ?_)
  simp [Record.fieldNames, Record.field?, License.field?, Value.restored_ofUInt64 bound]

namespace Annotation

structure Storable (a : Annotation) : Prop where
  id : a.id ≤ maxRecordId
  imageId : a.imageId ≤ maxRecordId
  categoryId : a.categoryId ≤ maxRecordId
  box : ∀ x ∈ a.box.toList, x.isFinite = true
  segmentation : ∀ json ∈ a.segmentation, json.Storable ∧ json ≠ .null

/-- What comes back of an annotation: JSON has no text for an area that is not finite. -/
def stored (a : Annotation) : Annotation := { a with area := a.area.filter Binary64.isFinite }

theorem stored_eq_self {a : Annotation} (finite : ∀ x ∈ a.area, x.isFinite = true) :
    a.stored = a := by
  have kept : a.area.filter Binary64.isFinite = a.area := by
    cases area : a.area with
    | none => rfl
    | some x => rw [Option.filter_some, finite x area, if_pos rfl]
  rw [stored, kept]

def rereadSegmentation (a : Annotation) : Option Json :=
  ((a.segmentation.map Value.ofJson).filter fun v => !v.isNull).map Value.toJson

private theorem readBox_of {fields : Fields} {box : Box}
    (given : fields.get? "bbox" = some (.list (box.toList.map .float))) :
    readBox fields = .ok box := by
  have list : fields.requireList "annotation" "bbox" = .ok (box.toList.map Value.float) := by
    rw [Fields.requireList, Fields.requireAs, Fields.require, Fields.optional?_of_get? given rfl]
    rfl
  rw [readBox, list]
  rfl

private theorem segmentation_of {fields : Fields} {a : Annotation}
    (given : fields.get? "segmentation" = some a.segmentationValue) :
    (fields.optional? "segmentation").map Value.toJson = a.rereadSegmentation := by
  rw [Fields.optional?, given, segmentationValue, rereadSegmentation]
  cases a.segmentation <;> rfl

theorem ofFields_of_hold {fields : Fields} {a : Annotation} (boundId : a.id ≤ maxRecordId)
    (boundImage : a.imageId ≤ maxRecordId) (boundCategory : a.categoryId ≤ maxRecordId)
    (hold : fields.Hold a) :
    FieldRecord.ofFields fields = .ok { a with segmentation := a.rereadSegmentation } := by
  have id := Fields.recordId_of "annotation" boundId (hold "id" (by decide))
  have imageId := Fields.requireKey_of "annotation" boundImage (hold "image_id" (by decide))
  have categoryId := Fields.requireKey_of "annotation" boundCategory
    (hold "category_id" (by decide))
  have box := readBox_of (hold "bbox" (by decide))
  have isCrowd := Fields.optionalInt_of "annotation" (n := some a.isCrowd)
    (hold "iscrowd" (by decide))
  have segmentation := segmentation_of (hold "segmentation" (by decide))
  have area := Fields.optionalFloat_of "annotation" (hold "area" (by decide))
  change ofFields fields = _
  simp only [ofFields, id, imageId, categoryId, box, isCrowd, segmentation, area,
    Option.getD_some, bind, Except.bind, pure, Except.pure]

private theorem rereadSegmentation_of_storable {a : Annotation}
    (storable : ∀ json ∈ a.segmentation, json.Storable ∧ json ≠ .null)
    (faithful : ∀ json ∈ a.segmentation, json.ObjectsReadBack) :
    a.rereadSegmentation = a.segmentation := by
  rw [rereadSegmentation]
  cases segmentation : a.segmentation with
  | none => rfl
  | some json =>
    obtain ⟨held, present⟩ := storable json segmentation
    have some : (Value.ofJson json).isNull = false := by
      cases held with
      | null => exact absurd rfl present
      | integer fits => rw [Value.ofJson, JsonNumber.toValue, if_pos fits]; rfl
      | _ => rfl
    rw [Option.map_some, Option.filter_some, some, Bool.not_false, if_pos rfl, Option.map_some,
      Value.toJson_ofJson held (faithful json segmentation)]

theorem ofFields_restored {a : Annotation} (storable : a.Storable)
    (faithful : ∀ json ∈ a.segmentation, json.ObjectsReadBack) :
    FieldRecord.ofFields (FieldRecord.toFields a).restored = .ok a.stored := by
  have segmentation : (Value.ofOption (a.segmentation.map Value.ofJson)).restored =
      Value.ofOption (a.segmentation.map Value.ofJson) := by
    cases segmentation : a.segmentation with
    | none => rfl
    | some json =>
      exact Value.restored_ofJson (storable.segmentation json segmentation).1
        (faithful json segmentation)
  have hold : (FieldRecord.toFields a).restored.Hold a.stored := by
    refine Record.hold_restored ?_
    simp [Record.fieldNames, Record.field?, Annotation.field?, segmentationValue, stored, segmentation,
      Value.restored_ofUInt64 storable.id, Value.restored_ofUInt64 storable.imageId,
      Value.restored_ofUInt64 storable.categoryId, Value.restored_ofFloat?,
      Value.restored_floats storable.box]
  have reread : a.stored.rereadSegmentation = a.segmentation :=
    rereadSegmentation_of_storable storable.segmentation faithful
  rw [ofFields_of_hold (a := a.stored) storable.id storable.imageId storable.categoryId hold, reread]
  rfl

end Annotation

namespace Sections

structure Storable (s : Sections) : Prop where
  images : ∀ image ∈ s.images.records, image.Storable
  annotations : ∀ a ∈ s.annotations.records, a.Storable
  categories : ∀ category ∈ s.categories.records, category.id ≤ maxRecordId
  licenses : ∀ license ∈ s.licenses.records, license.id ≤ maxRecordId

def stored (s : Sections) : Sections :=
  { s with annotations := s.annotations.derive (s.annotations.records.map Annotation.stored) }

theorem stored_eq_self {s : Sections}
    (finite : ∀ a ∈ s.annotations.records, ∀ x ∈ a.area, x.isFinite = true) : s.stored = s := by
  have each : ∀ a ∈ s.annotations.records, a.stored = id a :=
    fun a mem => Annotation.stored_eq_self (finite a mem)
  rw [stored, List.map_congr_left each, List.map_id]
  rfl

end Sections

namespace Document

variable {α : Type} [FieldRecord α]

private theorem decodeEntry_toObject (sectionName : String) (index : Nat) {r r' : α}
    (read : FieldRecord.ofFields (FieldRecord.toFields r).restored = .ok r') :
    decodeEntry sectionName index (FieldRecord.toFields r).toObject = .ok r' := by
  rw [Fields.toObject_eq, decodeEntry, Fields.ofObject_written, read]

private theorem decodeFrom_encode {stored : α → α} {sectionName : String} {index : Nat}
    {records : List α}
    (read : ∀ r ∈ records,
      FieldRecord.ofFields (FieldRecord.toFields r).restored = .ok (stored r)) :
    decodeFrom sectionName index (records.map fun r => (FieldRecord.toFields r).toObject) =
      .ok (records.map stored) := by
  induction records generalizing index with
  | nil => rfl
  | cons r records ih =>
    have first := decodeEntry_toObject sectionName index (read r List.mem_cons_self)
    have others := @ih (index + 1) fun r mem => read r (List.mem_cons_of_mem _ mem)
    rw [List.map_cons, decodeFrom, first, List.map_cons]
    simp only [others, Except.map]

private theorem decode_encode (sectionName : String) (stored : α → α) {t : Table α}
    (read : ∀ r ∈ t.records,
      FieldRecord.ofFields (FieldRecord.toFields r).restored = .ok (stored r)) (policy : IdPolicy) :
    decode sectionName (encode t) policy =
      .ok ((t.derive (t.records.map stored)).withPolicy policy) := by
  rw [decode, encode, decodeFrom_encode read]
  rfl

theorem sections_ofSections {s : Sections} (storable : s.Storable)
    (faithful : ∀ a ∈ s.annotations.records, ∀ json ∈ a.segmentation, json.ObjectsReadBack)
    (info : Info) (policy : IdPolicy) :
    (ofSections info s).sections policy = .ok (s.stored.withPolicy policy) := by
  have same : ∀ {β : Type} (t : Table β), t.derive (t.records.map id) = t :=
    fun t => by rw [List.map_id]; rfl
  have images := decode_encode "images" id
    (fun image mem => Image.ofFields_restored (storable.images image mem)) policy
  have annotations := decode_encode "annotations" Annotation.stored
    (fun a mem => Annotation.ofFields_restored (storable.annotations a mem) (faithful a mem)) policy
  have categories := decode_encode "categories" id
    (fun category mem => Category.ofFields_restored (storable.categories category mem)) policy
  have licenses := decode_encode "licenses" id
    (fun license mem => License.ofFields_restored (storable.licenses license mem)) policy
  rw [same] at images categories licenses
  simp only [sections, ofSections, images, annotations, categories, licenses, Option.getD_some,
    bind, Except.bind, pure, Except.pure]
  rfl

end Document

end ImageCatalog
