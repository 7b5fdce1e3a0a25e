import ImageCatalog.Proofs.Dataset.Disk
import ImageCatalog.Proofs.Dataset.ImageFiles

/-! Images that are replaced along with their files. The first image with the number gives way to
the new one, or nothing is replaced; the new file can be read, unless the old name is another name
of the same file, which is then removed after it was written. -/

set_option autoImplicit false

namespace ImageCatalog

namespace ImageStore

/-- Whether the file that is written under the new name is removed again as that of the old name:
the names are not the same, but lead to the same place, and the disk lets the old file be found. -/
structure Clashes (store : ImageStore) (oldName newName : String) (disk : Disk) : Prop where
  renamed : oldName ≠ newName
  samePlace : disk.locate? (store.path oldName) = disk.locate? (store.path newName)
  found : disk.refuses (disk.performed + 1) (.probe (store.path oldName)) = false

structure Replaced (store : ImageStore) (oldName newName : String) (content : ByteArray)
    (disk disk' : Disk) : Prop where
  written : disk'.content? (store.path newName) = some content ↔
    ¬store.Clashes oldName newName disk
  others : ∀ path, disk.locate? path ≠ disk.locate? (store.path newName) →
    disk.locate? path ≠ disk.locate? (store.path oldName) →
      disk'.content? path = disk.content? path

theorem eq_some_of_orFault {α : Type} {path : String} {result : Option α × Disk} {a : α} {disk : Disk}
    (succeeded : orFault path result = (.ok a, disk)) : result = (some a, disk) := by
  rcases result with ⟨_ | b, after⟩
  · cases succeeded
  · cases succeeded
    rfl

theorem read_eq_ok_iff {store : ImageStore} {name : String} {content : ByteArray} {disk : Disk} :
    (store.read name disk).1 = .ok content ↔
      disk.refuses disk.performed (.read (store.path name)) = false ∧
        disk.content? (store.path name) = some content := by
  rw [read, Disk.read]
  cases refused : disk.refuses disk.performed (.read (store.path name)) with
  | true => simp [Disk.attempt, refused, orFault]
  | false =>
    have same : (disk.attempt (.read (store.path name))).2.content? (store.path name) =
      disk.content? (store.path name) := disk.content?_attempt _ _
    simp only [Disk.attempt, refused] at same ⊢
    cases found : disk.content? (store.path name) <;> simp [same, found, orFault]

end ImageStore

namespace Dataset

open ImageStore (Clashes Replaced)

/-- The old file is removed after the new one was written, so in the same place there is none. -/
theorem replaceFile_eq_ok {store : ImageStore} {oldName newName : String} {content : ByteArray}
    {disk disk' : Disk}
    (replaced : replaceFile store oldName newName content disk = (.ok (), disk')) :
    store.Replaced oldName newName content disk disk' := by
  rw [replaceFile] at replaced
  rcases saved : store.save newName content disk with ⟨fault | _, disk₁⟩
  · simp [saved] at replaced
  simp only [saved] at replaced
  obtain ⟨place, leads, wrote⟩ := Disk.write_eq_some (ImageStore.eq_some_of_orFault saved)
  by_cases renamed : oldName = newName
  · rw [if_pos renamed] at replaced
    cases replaced
    refine ⟨iff_of_true ?_ fun clash => clash.renamed renamed, fun path other _ => ?_⟩
    · rw [wrote.content?, if_pos leads]
    · rw [wrote.content?, if_neg (leads ▸ other)]
  rw [if_neg renamed, ImageStore.exists?, Disk.probe_eq, wrote.refuses, wrote.performed] at replaced
  -- what the disk is like once the old file has been looked for
  generalize probed : (disk₁.attempt (.probe (store.path oldName))).2 = disk₂ at replaced
  have sameTree (path : String) : disk₂.locate? path = disk.locate? path := by
    rw [← probed, Disk.locate?_attempt, wrote.locate?]
  have contents (path : String) : disk₂.content? path =
      if disk.locate? path = some place then some content else disk.content? path := by
    rw [← probed, Disk.content?_attempt, wrote.content?]
  cases found : !disk.refuses (disk.performed + 1) (.probe (store.path oldName)) &&
      (disk₁.content? (store.path oldName)).isSome with
  | false =>
    rw [found] at replaced
    cases replaced
    refine ⟨iff_of_true ?_ fun clash => ?_, fun path other _ => ?_⟩
    · rw [contents, if_pos leads]
    · rw [clash.found, wrote.content?, if_pos (clash.samePlace.trans leads)] at found
      cases found
    · rw [contents, if_neg (leads ▸ other)]
  | true =>
    rw [found] at replaced
    obtain ⟨allowed, -⟩ := Bool.and_eq_true_iff.1 found
    obtain ⟨oldPlace, oldLeads, removed⟩ :=
      Disk.delete_eq_some (ImageStore.eq_some_of_orFault replaced)
    rw [sameTree] at oldLeads
    refine ⟨?_, fun path other other' => ?_⟩
    · rw [removed.content?, sameTree]
      by_cases same : disk.locate? (store.path newName) = some oldPlace
      · rw [if_pos same]
        refine iff_of_false (by simp) fun spared => spared ⟨renamed, oldLeads.trans same.symm, ?_⟩
        simpa using allowed
      · rw [if_neg same, contents, if_pos leads]
        exact iff_of_true rfl fun clash => same (clash.samePlace.symm.trans oldLeads)
    · rw [removed.content?, sameTree, if_neg (oldLeads ▸ other'), contents, if_neg (leads ▸ other)]

inductive Replacement (d : Dataset) (image : Image) (content : Option ByteArray) (disk : Disk) :
    Except DatasetFault (Option RecordId) × Dataset × Disk → Prop
  | absent : image.id ∉ d.images.ids → Replacement d image content disk (.ok none, d, disk)
  | unplaced {old : Image} {images : Table Image} {fault : DatasetFault} :
      d.images.Replacing old image images → d.storeFor content = .error fault →
      Replacement d image content disk (.error fault, d, disk)
  | replaced {old : Image} {images : Table Image} : d.storeFor content = .ok none →
      d.images.Replacing old image images →
      Replacement d image content disk (.ok (some image.id), d.setImages images, disk)
  | replacedWithFile {old : Image} {images : Table Image} {store : ImageStore} {bytes : ByteArray}
      {disk' : Disk} : d.storeFor content = .ok (some (store, bytes)) →
      d.images.Replacing old image images →
      store.Replaced old.fileName image.fileName bytes disk disk' →
      Replacement d image content disk (.ok (some image.id), d.setImages images, disk')
  /-- The new file could not be written, or the old one not be removed. -/
  | failed {old : Image} {images : Table Image} {store : ImageStore} {bytes : ByteArray}
      {fault : DatasetFault} {disk' : Disk} : d.storeFor content = .ok (some (store, bytes)) →
      d.images.Replacing old image images →
      replaceFile store old.fileName image.fileName bytes disk = (.error fault, disk') →
      Replacement d image content disk (.error fault, d, disk')

theorem replacement (d : Dataset) (image : Image) (content : Option ByteArray) (disk : Disk) :
    d.Replacement image content disk (d.updateWithImage image content disk) := by
  rw [updateWithImage]
  rcases d.images.update_cases image with ⟨absent, found, -⟩ |
    ⟨old, images, found, replacing, updated⟩
  · have found : d.images.get? image.id = none := found
    rw [found]
    exact .absent absent
  · have found : d.images.get? image.id = some old := found
    rw [found]
    cases place : d.storeFor content with
    | error fault => exact .unplaced replacing place
    | ok file =>
      simp only [updated]
      rcases file with _ | ⟨store, bytes⟩
      · exact .replaced place replacing
      · rcases swapped : replaceFile store old.fileName image.fileName bytes disk with
          ⟨fault | _, disk'⟩
        · simp only [swapped]
          exact .failed place replacing swapped
        · simp only [swapped]
          exact .replacedWithFile place replacing (replaceFile_eq_ok swapped)

/-- What the replacement of an image leaves of the images and the files. If it fails, the dataset is
as before. If there is no image with the number nothing is touched. Otherwise the first image with
the number gives way to the new one; without content no file is touched, and with content no file
but those of the two names, and reading the new one gives the content unless the names clash. -/
theorem updateWithImage_images (d : Dataset) (image : Image) (content : Option ByteArray)
    (disk : Disk) :
    match d.updateWithImage image content disk with
    | (.error fault, after, disk') => after = d ∧ image.id ∈ d.images.ids ∧
        (d.store? = none → fault = .noImageDirectory ∧ disk' = disk)
    | (.ok none, after, disk') => image.id ∉ d.images.ids ∧ after = d ∧ disk' = disk
    | (.ok (some id), after, disk') => id = image.id ∧
        ∃ old images, d.images.Replacing old image images ∧ after = d.setImages images ∧
          (content = none → disk' = disk) ∧
          ∀ bytes, content = some bytes → ∃ store, d.store? = some store ∧
            (∀ path, disk.locate? path ≠ disk.locate? (store.path image.fileName) →
              disk.locate? path ≠ disk.locate? (store.path old.fileName) →
              disk'.content? path = disk.content? path) ∧
            (disk'.refuses disk'.performed (.read (store.path image.fileName)) = false →
              ((store.read image.fileName disk').1 = .ok bytes ↔
                ¬store.Clashes old.fileName image.fileName disk)) := by
  have ends := d.replacement image content disk
  generalize d.updateWithImage image content disk = result at ends ⊢
  cases ends with
  | absent absent => exact ⟨absent, rfl, rfl⟩
  | unplaced replacing place =>
    obtain ⟨-, -, rfl⟩ := storeFor_eq_error_iff.1 place
    exact ⟨rfl, replacing.mem_ids, fun _ => ⟨rfl, rfl⟩⟩
  | failed place replacing _ =>
    obtain ⟨-, found⟩ := storeFor_eq_some_iff.1 place
    exact ⟨rfl, replacing.mem_ids, fun none => by simp [none] at found⟩
  | @replaced old images place replacing =>
    refine ⟨rfl, old, images, replacing, rfl, fun _ => rfl, fun bytes given => ?_⟩
    rw [storeFor_eq_none_iff.1 place] at given
    cases given
  | @replacedWithFile old images store bytes disk' place replacing files =>
    obtain ⟨given, found⟩ := storeFor_eq_some_iff.1 place
    refine ⟨rfl, old, images, replacing, rfl, fun without => ?_, fun bytes' given' => ?_⟩
    · rw [given] at without
      cases without
    · obtain rfl : bytes = bytes' := Option.some.inj (given.symm.trans given')
      refine ⟨store, found, files.others, fun allowed => ?_⟩
      rw [ImageStore.read_eq_ok_iff, files.written, and_iff_right allowed]

def shelf : Dataset where
  path := "coco.json"
  config := { imagesDirectory := some "imgs" }
  sections :=
    { Sections.empty .permissive with
      images := { records := [{ id := 1, fileName := "a.png" }] } }

def shelfDisk : Disk :=
  { Disk.blank with
    entries := [(["scratch", "imgs", "a.png"], .file ⟨#[120]⟩), (["scratch", "imgs"], .directory),
      (["scratch"], .directory)] }

/-- The new name is another one for the same file, which is written, and then removed as the old
one. -/
theorem shelf_updateWithImage :
    let (result, after, disk) :=
      shelf.updateWithImage { id := 1, fileName := "./a.png" } (some ⟨#[121]⟩) shelfDisk
    result = .ok (some 1) ∧ after.images.records = [{ id := 1, fileName := "./a.png" }] ∧
      ((⟨"imgs"⟩ : ImageStore).read "./a.png" disk).1 = .error (.io "imgs/./a.png") :=
  ⟨rfl, rfl, rfl⟩

end Dataset

end ImageCatalog
