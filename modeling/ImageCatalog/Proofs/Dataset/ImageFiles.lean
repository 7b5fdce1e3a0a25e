import ImageCatalog.Dataset.Basic
import ImageCatalog.Proofs.Record.Removal

set_option autoImplicit false

namespace ImageCatalog

open Record (withId)

theorem ImageStore.fault_of_orFault {α : Type} {path : String} {result : Option α × Disk}
    {fault : DatasetFault} {disk : Disk} (failed : orFault path result = (.error fault, disk)) :
    fault = .io path := by
  rcases result with ⟨_ | a, after⟩
  · cases failed
    rfl
  · cases failed

namespace Dataset

section Store

variable {α : Type} {d : Dataset} {content : Option α}

theorem storeFor_eq_error_iff {fault : DatasetFault} :
    d.storeFor content = .error fault ↔
      content.isSome = true ∧ d.store? = none ∧ fault = .noImageDirectory := by
  cases content with
  | none => simp [storeFor]
  | some a => cases found : d.store? <;> simp [storeFor, requireStore, found, Except.map, eq_comm]

theorem storeFor_eq_some_iff {store : ImageStore} {a : α} :
    d.storeFor content = .ok (some (store, a)) ↔ content = some a ∧ d.store? = some store := by
  cases content with
  | none => simp [storeFor]
  | some b =>
    cases found : d.store? <;> simp [storeFor, requireStore, found, Except.map, and_comm]

theorem storeFor_eq_none_iff : d.storeFor content = .ok none ↔ content = none := by
  cases content with
  | none => simp [storeFor]
  | some a => cases found : d.store? <;> simp [storeFor, requireStore, found, Except.map]

end Store

inductive Addition (d : Dataset) (image : Image) (content : Option ByteArray) (disk : Disk) :
    Except DatasetFault RecordId × Dataset × Disk → Prop
  | unplaced {fault : DatasetFault} : d.storeFor content = .error fault →
      Addition d image content disk (.error fault, d, disk)
  | refused {file : Option (ImageStore × ByteArray)} {cause : Fault} :
      d.storeFor content = .ok file → (d.images.append image).1 = .error cause →
      Addition d image content disk (.error (.fault cause), d, disk)
  | added {id : RecordId} {images : Table Image} : d.storeFor content = .ok none →
      d.images.append image = (.ok id, images) →
      Addition d image content disk (.ok id, d.setImages images, disk)
  | addedWithFile {id : RecordId} {images : Table Image} {store : ImageStore} {bytes : ByteArray}
      {disk' : Disk} : d.storeFor content = .ok (some (store, bytes)) →
      d.images.append image = (.ok id, images) →
      store.save image.fileName bytes disk = (.ok (), disk') →
      Addition d image content disk (.ok id, d.setImages images, disk')
  /-- The file could not be written, so the first record with the number is removed. -/
  | undone {id : RecordId} {images : Table Image} {store : ImageStore} {bytes : ByteArray}
      {fault : DatasetFault} {disk' : Disk} : d.storeFor content = .ok (some (store, bytes)) →
      d.images.append image = (.ok id, images) →
      store.save image.fileName bytes disk = (.error fault, disk') →
      Addition d image content disk (.error fault, d.setImages (images.delete id).2, disk')

theorem addition (d : Dataset) (image : Image) (content : Option ByteArray) (disk : Disk) :
    d.Addition image content disk (d.appendWithImage image content disk) := by
  rw [appendWithImage]
  cases place : d.storeFor content with
  | error fault => exact .unplaced place
  | ok file =>
    rcases appended : d.images.append image with ⟨_ | id, images⟩
    · exact .refused place (congrArg Prod.fst appended)
    · rcases file with _ | ⟨store, bytes⟩
      · exact .added place appended
      · rcases saved : store.save image.fileName bytes disk with ⟨fault | _, disk'⟩
        · simp only [saved]
          exact .undone place appended saved
        · simp only [saved]
          exact .addedWithFile place appended saved

/-- A record that was added is the last one. No other record has its number, unless the number was
given and the policy lets records share it. -/
private theorem of_append_eq_ok {t images : Table Image} {image : Image} {id : RecordId}
    (added : t.append image = (.ok id, images)) :
    images = t.derive (t.records ++ [withId id image]) ∧
      (image.id = 0 ∨ t.policy = .strict → id ∉ t.ids) ∧
      (image.id ≠ 0 → id = image.id ∧ image.id ≤ maxRecordId) := by
  have spec := t.appends image
  by_cases unnumbered : image.id = 0
  · rcases spec.unnumbered unnumbered with ⟨n, result, -, -, fresh⟩ | ⟨-, result⟩
    · obtain ⟨rfl, rfl⟩ : id = n ∧ images = t.derive (t.records ++ [withId n image]) := by
        simpa [added] using result
      exact ⟨rfl, fun _ member => UInt64.lt_irrefl id (fresh id member),
        fun given => absurd unnumbered given⟩
    · simp [added] at result
  · rcases spec.numbered unnumbered with ⟨result, bound, free⟩ | ⟨-, result⟩ | ⟨-, -, result⟩
    · obtain ⟨rfl, rfl⟩ : id = Record.idOf image ∧ images = t.derive (t.records ++ [image]) := by
        simpa [added] using result
      exact ⟨rfl, fun reason => free (reason.resolve_left unnumbered), fun _ => ⟨rfl, bound⟩⟩
    · simp [added] at result
    · simp [added] at result

/-- Whether removing the number of an image that was just added takes an older image instead: the
number was given, the policy lets it be shared, and the first image that has it is not the new one
over again, up to the end of the table. -/
structure Displaces (d : Dataset) (image : Image) (content : Option ByteArray) : Prop where
  content : content.isSome = true
  store : d.store?.isSome = true
  shared : d.images.policy = .permissive
  given : image.id ≠ 0
  bound : image.id ≤ maxRecordId
  older : ∃ other ∈ d.images.records.dropWhile fun r => !(r.id == image.id), other ≠ image

variable {d : Dataset} {image : Image} {content : Option ByteArray}

theorem Displaces.append_eq (displaces : d.Displaces image content) :
    d.images.append image = (.ok image.id, d.images.derive (d.images.records ++ [image])) := by
  rcases (d.images.appends image).numbered displaces.given with
    ⟨result, -⟩ | ⟨past, -⟩ | ⟨strict, -⟩
  · exact result
  · exact absurd past (UInt64.not_lt.2 displaces.bound)
  · rw [displaces.shared] at strict
    cases strict

theorem Displaces.delete_concat (displaces : d.Displaces image content) :
    ((d.images.derive (d.images.records ++ [image])).delete image.id).2 ≠ d.images ∧
      ((d.images.derive (d.images.records ++ [image])).delete image.id).2 =
        d.images.derive (d.images.records.eraseP (fun r => r.id == image.id) ++ [image]) := by
  have changed :
      ((d.images.derive (d.images.records ++ [image])).delete image.id).2 ≠ d.images := by
    obtain ⟨other, behind, differs⟩ := displaces.older
    exact fun same => differs (Table.delete_concat_eq_self_iff.1 same other behind)
  refine ⟨changed, Table.delete_concat_of_mem ?_⟩
  by_contra fresh
  exact changed (Table.delete_concat_of_fresh fresh)

private theorem delete_of_append {images : Table Image} {id : RecordId}
    (hasContent : content.isSome = true) (hasStore : d.store?.isSome = true)
    (added : d.images.append image = (.ok id, images)) (spared : ¬d.Displaces image content) :
    (images.delete id).2 = d.images := by
  obtain ⟨rfl, fresh, given⟩ := of_append_eq_ok added
  by_cases own : image.id = 0 ∨ d.images.policy = .strict
  · exact Table.delete_concat_of_fresh (r := withId id image) (fresh own)
  · rw [not_or] at own
    obtain ⟨rfl, bound⟩ := given own.1
    have shared : d.images.policy = .permissive := by
      cases policy : d.images.policy with
      | permissive => rfl
      | strict => exact absurd policy own.2
    refine Table.delete_concat_eq_self_iff.2 fun other behind => ?_
    by_contra differs
    exact spared ⟨hasContent, hasStore, shared, own.1, bound, other, behind, differs⟩

/-- An image that is added is put last. What a failed addition leaves is all of the images, or all
but the first that has the number, with the image that was to be added put last after all. -/
theorem appendWithImage_images (d : Dataset) (image : Image) (content : Option ByteArray)
    (disk : Disk) :
    match d.appendWithImage image content disk with
    | (.ok id, after, _) => (image.id ≠ 0 → id = image.id) ∧
        after = d.setImages (d.images.derive (d.images.records ++ [{ image with id }]))
    | (.error _, after, _) => (¬d.Displaces image content → after = d) ∧
        (d.Displaces image content → after.images ≠ d.images ∧
          after = d.setImages (d.images.derive
            (d.images.records.eraseP (fun r => r.id == image.id) ++ [image]))) := by
  have ends := d.addition image content disk
  generalize d.appendWithImage image content disk = result at ends ⊢
  cases ends with
  | unplaced place =>
    obtain ⟨-, none, -⟩ := storeFor_eq_error_iff.1 place
    refine ⟨fun _ => rfl, fun displaces => ?_⟩
    have store := displaces.store
    simp [none] at store
  | refused place refusal =>
    refine ⟨fun _ => rfl, fun displaces => ?_⟩
    rw [displaces.append_eq] at refusal
    cases refusal
  | added _ appended | addedWithFile _ appended _ =>
    obtain ⟨rfl, -, given⟩ := of_append_eq_ok appended
    exact ⟨fun numbered => (given numbered).1, rfl⟩
  | @undone id images store bytes fault disk' place appended failed =>
    obtain ⟨hasContent, hasStore⟩ := storeFor_eq_some_iff.1 place
    constructor
    · intro spared
      have restored := delete_of_append (by simp [hasContent]) (by simp [hasStore]) appended spared
      rw [restored]
      rfl
    · intro displaces
      obtain ⟨rfl, rfl⟩ :
          image.id = id ∧ d.images.derive (d.images.records ++ [image]) = images := by
        simpa [displaces.append_eq] using appended
      obtain ⟨changed, removed⟩ := displaces.delete_concat
      exact ⟨changed, congrArg d.setImages removed⟩

/-- The number 1 is taken, and no file can be written or removed, as the directory of the images
does not exist. -/
def taken : Dataset where
  path := "coco.json"
  config := { imagesDirectory := some "missing" }
  sections :=
    { Sections.empty .permissive with
      images := { records := [{ id := 1, fileName := "a.png" }] } }

/-- The older image is lost, and the one that could not be added stays. -/
theorem taken_appendWithImage :
    let (result, after, _) :=
      taken.appendWithImage { id := 1, fileName := "b.png" } (some .empty) .blank
    result = .error (.io "missing/b.png") ∧
      taken.images.records = [{ id := 1, fileName := "a.png" }] ∧
      after.images.records = [{ id := 1, fileName := "b.png" }] :=
  ⟨rfl, rfl, rfl⟩

inductive Removal (d : Dataset) (id : RecordId) (deleteFile : Bool) (disk : Disk) :
    Except DatasetFault (Option Image) × Dataset × Disk → Prop
  | unplaced {fault : DatasetFault} :
      d.storeFor (if deleteFile then some () else none) = .error fault →
      Removal d id deleteFile disk (.error fault, d, disk)
  | absent {file : Option (ImageStore × Unit)} :
      d.storeFor (if deleteFile then some () else none) = .ok file → id ∉ d.images.ids →
      Removal d id deleteFile disk (.ok none, d, disk)
  | removed {image : Image} {images : Table Image} :
      d.storeFor (if deleteFile then some () else none) = .ok none →
      d.images.WithoutFirst id image images →
      Removal d id deleteFile disk (.ok (some image), d.setImages images, disk)
  | removedWithFile {image : Image} {images : Table Image} {store : ImageStore} {disk' : Disk} :
      d.storeFor (if deleteFile then some () else none) = .ok (some (store, ())) →
      d.images.WithoutFirst id image images →
      store.delete image.fileName disk = (.ok (), disk') →
      Removal d id deleteFile disk (.ok (some image), d.setImages images, disk')
  /-- The file could not be removed, but its record is gone. -/
  | undeleted {image : Image} {images : Table Image} {store : ImageStore} {fault : DatasetFault}
      {disk' : Disk} : d.storeFor (if deleteFile then some () else none) = .ok (some (store, ())) →
      d.images.WithoutFirst id image images →
      store.delete image.fileName disk = (.error fault, disk') →
      Removal d id deleteFile disk (.error fault, d.setImages images, disk')

theorem removal (d : Dataset) (id : RecordId) (deleteFile : Bool) (disk : Disk) :
    d.Removal id deleteFile disk (d.deleteWithImage id deleteFile disk) := by
  rw [deleteWithImage]
  cases place : d.storeFor (if deleteFile then some () else none) with
  | error fault => exact .unplaced place
  | ok file =>
    rcases d.images.delete_cases id with ⟨absent, result⟩ | ⟨image, images, without, result⟩
    · simp only [result]
      rcases file with _ | ⟨store, _⟩ <;> exact .absent place absent
    · simp only [result]
      rcases file with _ | ⟨store, _⟩
      · exact .removed place without
      · rcases deleted : store.delete image.fileName disk with ⟨fault | _, disk'⟩
        · simp only [deleted]
          exact .undeleted place without deleted
        · simp only [deleted]
          exact .removedWithFile place without deleted

/-- What the removal of an image leaves of the images. If it succeeds, they are as before but for
the first with the number, which is given back; without one nothing is touched. If it fails for want
of a directory nothing is touched either, but if the file cannot be removed its record is gone. -/
theorem deleteWithImage_images (d : Dataset) (id : RecordId) (deleteFile : Bool) (disk : Disk) :
    match d.deleteWithImage id deleteFile disk with
    | (.ok none, after, disk') => id ∉ d.images.ids ∧ after = d ∧ disk' = disk
    | (.ok (some image), after, _) =>
      ∃ images, d.images.WithoutFirst id image images ∧ after = d.setImages images
    | (.error fault, after, disk') =>
      (d.store? = none → fault = .noImageDirectory ∧ after = d ∧ disk' = disk) ∧
        ∀ store, d.store? = some store → after.images ≠ d.images ∧
          ∃ image images, d.images.WithoutFirst id image images ∧ after = d.setImages images ∧
            fault = .io (store.path image.fileName) := by
  have ends := d.removal id deleteFile disk
  generalize d.deleteWithImage id deleteFile disk = result at ends ⊢
  cases ends with
  | unplaced place =>
    obtain ⟨-, none, rfl⟩ := storeFor_eq_error_iff.1 place
    exact ⟨fun _ => ⟨rfl, rfl, rfl⟩, fun store found => by simp [none] at found⟩
  | absent _ absent => exact ⟨absent, rfl, rfl⟩
  | removed _ without => exact ⟨_, without, rfl⟩
  | removedWithFile _ without _ => exact ⟨_, without, rfl⟩
  | undeleted place without failed =>
    obtain ⟨-, found⟩ := storeFor_eq_some_iff.1 place
    refine ⟨fun none => by simp [none] at found, fun store' found' => ?_⟩
    obtain rfl : store' = _ := Option.some.inj (found'.symm.trans found)
    exact ⟨without.ne, _, _, without, rfl, ImageStore.fault_of_orFault failed⟩

/-- The file of the first image is missing, and so is its record after an attempt to remove both. -/
theorem taken_deleteWithImage :
    let (result, after, _) := taken.deleteWithImage 1 true .blank
    result = .error (.io "missing/a.png") ∧
      taken.images.records = [{ id := 1, fileName := "a.png" }] ∧ after.images.records = [] :=
  ⟨rfl, rfl, rfl⟩

end Dataset

end ImageCatalog
