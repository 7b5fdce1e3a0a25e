import ImageCatalog.Proofs.Catalog.Decoding

/-! The floating-point numbers of records. Only annotations have any, as ids within the bound are
written as integers, so the document of a dataset is read back from its text if the numbers of its
annotations are. -/

set_option autoImplicit false

namespace ImageCatalog

theorem Json.HoldsOfPlain.readsBack : Json.HoldsOfPlain Json.ReadsBack where
  null _ mem := absurd mem List.not_mem_nil
  int _ _ mem := absurd mem List.not_mem_nil
  string _ _ mem := absurd mem List.not_mem_nil

theorem Value.readsBack_float {x : Binary64} (faithful : x.isFinite = true → x.ReadsBack) :
    (Value.float x).toJson.ReadsBack := by
  rw [toJson]
  split
  · next finite => exact List.forall_mem_singleton.2 (faithful finite)
  · exact Json.HoldsOfPlain.readsBack.null

theorem Value.readsBack_ofUInt64 {n : RecordId} (bound : n ≤ maxRecordId) :
    (ofUInt64 n).toJson.ReadsBack := by
  rw [ofUInt64_of_le bound]
  exact Json.HoldsOfPlain.readsBack.int _

theorem Image.readsBack_toObject {image : Image} (storable : image.Storable) :
    (FieldRecord.toFields image).toObject.ReadsBack :=
  Json.readsBack_object_iff.2 (forall_written .readsBack
    (Value.readsBack_ofUInt64 storable.id)
    fun n mem => Value.readsBack_ofUInt64 (storable.license n mem))

theorem Category.readsBack_toObject {category : Category} (bound : category.id ≤ maxRecordId) :
    (FieldRecord.toFields category).toObject.ReadsBack :=
  Json.readsBack_object_iff.2 (forall_written .readsBack (Value.readsBack_ofUInt64 bound))

theorem License.readsBack_toObject {license : License} (bound : license.id ≤ maxRecordId) :
    (FieldRecord.toFields license).toObject.ReadsBack :=
  Json.readsBack_object_iff.2 (forall_written .readsBack (Value.readsBack_ofUInt64 bound))

namespace Annotation

def floats (a : Annotation) : List Binary64 :=
  a.box.toList ++ a.area.toList ++ (a.segmentation.map Json.floats).getD []

/-- Every finite number of the annotation reads back from its text. -/
def ReadsBack (a : Annotation) : Prop := ∀ x ∈ a.floats, x.isFinite = true → x.ReadsBack

instance (a : Annotation) : Decidable a.ReadsBack :=
  inferInstanceAs (Decidable (∀ x ∈ a.floats, x.isFinite = true → x.ReadsBack))

variable {a : Annotation} {depth : Nat}

theorem ReadsBack.segmentation (faithful : a.ReadsBack)
    (readable : ∀ json ∈ a.segmentation, json.Readable depth) :
    ∀ json ∈ a.segmentation, json.ReadsBack := by
  intro json given x mem
  refine faithful x (List.mem_append_right _ ?_) ((readable json given).isFinite x mem)
  rw [Option.mem_def.1 given]
  exact mem

theorem readsBack_toObject (storable : a.Storable) (faithful : a.ReadsBack)
    (readable : ∀ json ∈ a.segmentation, json.Readable depth) :
    (FieldRecord.toFields a).toObject.ReadsBack := by
  obtain ⟨⟨box, area⟩, -⟩ : ((∀ x ∈ a.box.toList, x.isFinite = true → x.ReadsBack) ∧
      ∀ x ∈ a.area.toList, x.isFinite = true → x.ReadsBack) ∧ _ := by
    rw [← List.forall_mem_append, ← List.forall_mem_append]
    exact faithful
  have segmentation : a.segmentationValue.toJson.ReadsBack := by
    have each := faithful.segmentation readable
    rw [segmentationValue]
    cases given : a.segmentation with
    | none => exact Json.HoldsOfPlain.readsBack.null
    | some json =>
      have same := Value.toJson_ofJson (storable.segmentation json given).1
        (each json given).objectsReadBack
      change (Value.ofJson json).toJson.ReadsBack
      rw [same]
      exact each json given
  refine Json.readsBack_object_iff.2 (forall_written .readsBack
    (Value.readsBack_ofUInt64 storable.id) (Value.readsBack_ofUInt64 storable.imageId)
    (Value.readsBack_ofUInt64 storable.categoryId) segmentation
    (fun x given => Value.readsBack_float (area x (Option.mem_toList.2 given))) ?_)
  exact Json.readsBack_array_iff.2
    (List.forall_mem_map.2 fun x mem => Value.readsBack_float (box x mem))

end Annotation

namespace Document

theorem readsBack_ofSections {s : Sections} (storable : s.Storable) (shallow : Shallow s)
    (faithful : ∀ a ∈ s.annotations.records, a.ReadsBack) (info : Info) :
    ∀ json ∈ (ofSections info s).allEntries, json.ReadsBack := by
  refine forall_allEntries_iff.2 ⟨?_, ?_, ?_, ?_⟩
  · exact List.forall_mem_map.2 fun image mem =>
      Image.readsBack_toObject (storable.images image mem)
  · exact List.forall_mem_map.2 fun a mem =>
      Annotation.readsBack_toObject (storable.annotations a mem) (faithful a mem) (shallow a mem)
  · exact List.forall_mem_map.2 fun category mem =>
      Category.readsBack_toObject (storable.categories category mem)
  · rintro _ ⟨⟩
    exact List.forall_mem_map.2 fun license mem =>
      License.readsBack_toObject (storable.licenses license mem)

end Document

end ImageCatalog
