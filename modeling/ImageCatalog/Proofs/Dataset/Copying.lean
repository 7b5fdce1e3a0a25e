import ImageCatalog.Proofs.Dataset.Filtering
import ImageCatalog.Proofs.Dataset.Paths
import ImageCatalog.Proofs.Dataset.Replacing

/-! Copies of image files. Each copy empties its target before it reads its source, and reads what
the copies before it left; so where paths lead to one place, files are lost or stem from others than
they are counted for. After a run the content of every place is that of the place it stems from. -/

set_option autoImplicit false

namespace ImageCatalog

@[ext]
structure Transfer where
  source : Location
  target : Location
deriving DecidableEq

namespace Transfer

/-- The place before a copy that the content of a place stems from; none if the copy is one onto
itself, which leaves nothing. -/
def origin (t : Transfer) (place : Location) : Option Location :=
  if place = t.target then if t.source = t.target then none else some t.source
  else some place

def originOf : List Transfer → Location → Option Location
  | [], place => some place
  | t :: ts, place => (originOf ts place).bind t.origin

theorem originOf_eq_self {ts : List Transfer} {place : Location}
    (other : ∀ t ∈ ts, t.target ≠ place) : originOf ts place = some place := by
  induction ts with
  | nil => rfl
  | cons t ts ih =>
    obtain ⟨first, others⟩ := List.forall_mem_cons.1 other
    rw [originOf, ih others, Option.bind_some, origin, if_neg first.symm]

/-- If no file is copied to where one is read, and only one to the place, what is there in the end is
the file that was copied. -/
theorem originOf_target {ts : List Transfer} {t : Transfer} (mem : t ∈ ts)
    (unread : ∀ s ∈ ts, ∀ u ∈ ts, u.target ≠ s.source)
    (single : ∀ u ∈ ts, u.target = t.target → u.source = t.source) :
    originOf ts t.target = some t.source := by
  induction ts with
  | nil => cases mem
  | cons u ts ih =>
    have apart : t.source ≠ u.target := (unread t mem u List.mem_cons_self).symm
    have unread' : ∀ s ∈ ts, ∀ u ∈ ts, u.target ≠ s.source := fun s among u among' =>
      unread s (List.mem_cons_of_mem _ among) u (List.mem_cons_of_mem _ among')
    rw [originOf]
    by_cases later : ∃ s ∈ ts, s.target = t.target
    · obtain ⟨s, among, same⟩ := later
      have stems : originOf ts t.target = some t.source := by
        obtain rfl : s = t := Transfer.ext (single s (List.mem_cons_of_mem _ among) same) same
        exact ih among unread' fun u among => single u (List.mem_cons_of_mem _ among)
      rw [stems, Option.bind_some, origin, if_neg apart]
    · simp only [not_exists, not_and] at later
      obtain rfl : t = u := by
        rcases List.mem_cons.1 mem with here | there
        · exact here
        · exact absurd rfl (later t there)
      rw [originOf_eq_self later, Option.bind_some, origin, if_pos rfl, if_neg apart]

theorem originOf_eq_none {ts : List Transfer} {place : Location} (mem : ⟨place, place⟩ ∈ ts)
    (single : ∀ t ∈ ts, t.target = place → t.source = place) : originOf ts place = none := by
  induction ts with
  | nil => cases mem
  | cons t ts ih =>
    have single' : ∀ t ∈ ts, t.target = place → t.source = place := fun t among =>
      single t (List.mem_cons_of_mem _ among)
    rw [originOf]
    by_cases later : ⟨place, place⟩ ∈ ts
    · rw [ih later single']
      rfl
    · have other : ∀ u ∈ ts, u.target ≠ place := by
        rintro ⟨source, target⟩ among rfl
        obtain rfl : source = target := single' _ among rfl
        exact later among
      obtain rfl : ⟨place, place⟩ = t := (List.mem_cons.1 mem).resolve_right later
      rw [originOf_eq_self other, Option.bind_some, origin, if_pos rfl, if_pos rfl]

end Transfer

namespace Disk

def contentFrom? (disk : Disk) : Option Location → Option ByteArray
  | some place => disk.contentAt? place
  | none => some .empty

variable {disk disk' : Disk} {location : Location} {content : Option ByteArray}

/-- A copy fails and touches no file, or else the target becomes what the source is, but empty if it
is the source. -/
theorem copy_cases (disk : Disk) (source target : String) :
    disk.copy source target = (none, (disk.attempt (.copy source target)).2) ∨
      ∃ (t : Transfer) (content : ByteArray) (size : Nat) (disk' : Disk),
        disk.locate? source = some t.source ∧ disk.locate? target = some t.target ∧
          disk.contentAt? t.source = some content ∧
          Changed t.target (some (if t.source = t.target then .empty else content)) disk disk' ∧
          disk.copy source target = (some size, disk') := by
  rw [copy]
  dsimp only
  cases readable : if (disk.attempt (.copy source target)).1 then
      (disk.attempt (.copy source target)).2.file? source else none with
  | none => exact Or.inl rfl
  | some file =>
    cases writable : (disk.attempt (.copy source target)).2.target? target with
    | none => exact Or.inl rfl
    | some there =>
      obtain ⟨here, content⟩ := file
      obtain ⟨-, readable⟩ := Option.ite_none_right_eq_some.1 readable
      obtain ⟨leads, read⟩ := file?_eq_some_iff.1 readable
      obtain ⟨leads', free⟩ := Option.filter_eq_some_iff.1 writable
      rw [locate?_attempt] at leads leads'
      have free : disk.isDirectory there = false := Bool.not_eq_eq_eq_not.1 free
      have emptied : Changed there (some .empty) disk _ := Changed.of_put free (.copy source target)
      -- what is read from the source once the target is empty
      have rest : ((disk.attempt (.copy source target)).2.put there (.file .empty)).file? source =
          some (here, if here = there then .empty else content) := by
        rw [file?_eq_some_iff, emptied.locate?, emptied.contentAt?]
        refine ⟨leads, ?_⟩
        by_cases same : here = there
        · rw [if_pos same, if_pos same]
        · rw [if_neg same, if_neg same]
          exact read
      simp only [rest]
      exact Or.inr ⟨⟨here, there⟩, content, _, _, leads, leads', read, emptied.put _, rfl⟩

theorem Changed.contentFrom? {t : Transfer} {bytes : ByteArray}
    (read : disk.contentAt? t.source = some bytes)
    (changed : Changed t.target (some (if t.source = t.target then .empty else bytes)) disk disk')
    (origin : Option Location) :
    disk'.contentFrom? origin = disk.contentFrom? (origin.bind t.origin) := by
  cases origin with
  | none => rfl
  | some place =>
    rw [Disk.contentFrom?, changed.contentAt?, Option.bind_some, Transfer.origin]
    by_cases there : place = t.target
    · rw [if_pos there, if_pos there]
      by_cases same : t.source = t.target
      · rw [if_pos same, if_pos same]
        rfl
      · rw [if_neg same, if_neg same]
        exact read.symm
    · rw [if_neg there, if_neg there]
      rfl

end Disk

namespace ImageStore

open Disk (Changed)
open Transfer (originOf)

/-- Where the file of an image is copied from and to, if both paths lead to a place. -/
def transfer? (store : ImageStore) (directory : String) (disk : Disk) (image : Image) :
    Option Transfer :=
  (disk.locate? (store.path image.fileName)).bind fun source =>
    (disk.locate? (Path.join directory image.fileName)).map fun target => ⟨source, target⟩

def transfers (store : ImageStore) (directory : String) (disk : Disk) (images : List Image) :
    List Transfer :=
  images.filterMap (store.transfer? directory disk)

/-- Files of images that are copied one after the other, each from what the copies before it left:
the images whose files could be copied, and those whose files could not. -/
inductive Copying (store : ImageStore) (directory : String) :
    List Image → Disk → List Image → List Image → Disk → Prop
  | done {disk : Disk} : Copying store directory [] disk [] [] disk
  | copied {image : Image} {images copied failed : List Image} {size : Nat}
      {disk disk₁ disk₂ : Disk} :
      store.copyTo image.fileName directory disk = (.ok size, disk₁) →
      Copying store directory images disk₁ copied failed disk₂ →
      Copying store directory (image :: images) disk (image :: copied) failed disk₂
  | failed {image : Image} {images copied failed : List Image} {fault : DatasetFault}
      {disk disk₁ disk₂ : Disk} :
      store.copyTo image.fileName directory disk = (.error fault, disk₁) →
      Copying store directory images disk₁ copied failed disk₂ →
      Copying store directory (image :: images) disk copied (image :: failed) disk₂

variable {store : ImageStore} {directory : String} {disk disk' : Disk} {image : Image}

theorem transfer?_eq_some_iff {t : Transfer} : store.transfer? directory disk image = some t ↔
    disk.locate? (store.path image.fileName) = some t.source ∧
      disk.locate? (Path.join directory image.fileName) = some t.target := by
  rw [transfer?]
  cases disk.locate? (store.path image.fileName) with
  | none => simp
  | some source =>
    cases disk.locate? (Path.join directory image.fileName) with
    | none => simp
    | some target => cases t; simp

theorem transfer?_congr (same : ∀ path, disk'.locate? path = disk.locate? path) :
    store.transfer? directory disk' = store.transfer? directory disk := by
  funext image
  rw [transfer?, transfer?, same, same]

theorem copyTo_eq_ok {size : Nat}
    (succeeded : store.copyTo image.fileName directory disk = (.ok size, disk')) :
    ∃ t content, store.transfer? directory disk image = some t ∧
      disk.contentAt? t.source = some content ∧
      Changed t.target (some (if t.source = t.target then .empty else content)) disk disk' := by
  have copied := eq_some_of_orFault succeeded
  rcases disk.copy_cases (store.path image.fileName) (Path.join directory image.fileName) with
    refused | ⟨t, content, size', disk₁, source, target, read, changed, ended⟩
  · rw [refused] at copied
    cases copied
  · rw [ended] at copied
    cases copied
    exact ⟨t, content, transfer?_eq_some_iff.2 ⟨source, target⟩, read, changed⟩

theorem copyTo_eq_error {fault : DatasetFault}
    (failed : store.copyTo image.fileName directory disk = (.error fault, disk')) :
    (∀ path, disk'.locate? path = disk.locate? path) ∧
      ∀ place, disk'.contentAt? place = disk.contentAt? place := by
  rw [copyTo] at failed
  rcases disk.copy_cases (store.path image.fileName) (Path.join directory image.fileName) with
    refused | ⟨t, content, size, disk₁, -, -, -, -, ended⟩
  · rw [refused] at failed
    cases failed
    exact ⟨disk.locate?_attempt _, fun _ => rfl⟩
  · rw [ended] at failed
    cases failed

namespace Copying

variable {images copied failed : List Image}

theorem sublist (copying : store.Copying directory images disk copied failed disk') :
    copied.Sublist images ∧ failed.Sublist images := by
  induction copying with
  | done => exact ⟨.refl _, .refl _⟩
  | copied _ _ ih => exact ⟨ih.1.cons_cons _, ih.2.cons _⟩
  | failed _ _ ih => exact ⟨ih.1.cons _, ih.2.cons_cons _⟩

theorem length (copying : store.Copying directory images disk copied failed disk') :
    copied.length + failed.length = images.length := by
  induction copying with
  | done => rfl
  | copied _ _ ih => simp only [List.length_cons]; omega
  | failed _ _ ih => simp only [List.length_cons]; omega

theorem locate? (copying : store.Copying directory images disk copied failed disk')
    (path : String) : disk'.locate? path = disk.locate? path := by
  induction copying with
  | done => rfl
  | copied succeeded _ ih =>
    obtain ⟨t, content, -, -, changed⟩ := copyTo_eq_ok succeeded
    rw [ih, changed.locate?]
  | failed failed _ ih => rw [ih, (copyTo_eq_error failed).1]

theorem contentAt? (copying : store.Copying directory images disk copied failed disk')
    (place : Location) : disk'.contentAt? place =
      disk.contentFrom? (originOf (store.transfers directory disk copied) place) := by
  induction copying with
  | done => rfl
  | copied succeeded _ ih =>
    obtain ⟨t, content, transfer, read, changed⟩ := copyTo_eq_ok succeeded
    rw [ih, changed.contentFrom? read, transfers, transfers, transfer?_congr changed.locate?,
      List.filterMap_cons_some transfer, originOf]
  | @failed _ _ copied _ _ disk disk₁ _ failed _ ih =>
    obtain ⟨sameTree, sameContents⟩ := copyTo_eq_error failed
    rw [ih, transfers, transfers, transfer?_congr sameTree]
    cases originOf (copied.filterMap (store.transfer? directory disk)) place with
    | none => rfl
    | some origin => exact sameContents origin

theorem isSome_contentAt? (copying : store.Copying directory images disk copied failed disk')
    {place : Location} (file : (disk.contentAt? place).isSome) :
    (disk'.contentAt? place).isSome := by
  induction copying with
  | done => exact file
  | copied succeeded _ ih =>
    obtain ⟨t, content, -, -, changed⟩ := copyTo_eq_ok succeeded
    refine ih ?_
    rw [changed.contentAt?]
    split
    · rfl
    · exact file
  | failed failed _ ih => exact ih (by rwa [(copyTo_eq_error failed).2])

theorem exists_transfer (copying : store.Copying directory images disk copied failed disk')
    (mem : image ∈ copied) : ∃ t, store.transfer? directory disk image = some t ∧
      (disk'.contentAt? t.target).isSome := by
  induction copying with
  | done => cases mem
  | copied succeeded rest ih =>
    obtain ⟨t, content, transfer, -, changed⟩ := copyTo_eq_ok succeeded
    rcases List.mem_cons.1 mem with rfl | later
    · refine ⟨t, transfer, rest.isSome_contentAt? ?_⟩
      rw [changed.contentAt?, if_pos rfl]
      rfl
    · rw [← transfer?_congr changed.locate?]
      exact ih later
  | failed failed _ ih =>
    rw [← transfer?_congr (copyTo_eq_error failed).1]
    exact ih mem

end Copying

/-- Whether a place is in the directory of the store, at any depth. -/
def Encloses (store : ImageStore) (disk : Disk) (place : Location) : Prop :=
  disk.destination store.directory <+: place ∧ disk.destination store.directory ≠ place

/-- What copies should leave on the disk: every file in the directory of the store as it was, and
for each image that counts as copied the file that the image had. -/
structure Faithful (store : ImageStore) (directory : String) (copied : List Image)
    (disk disk' : Disk) : Prop where
  kept : ∀ place content, store.Encloses disk place → disk.contentAt? place = some content →
    disk'.contentAt? place = some content
  arrived : ∀ image ∈ copied, ∃ content, disk.content? (store.path image.fileName) = some content ∧
    disk'.content? (Path.join directory image.fileName) = some content

structure Untangled (store : ImageStore) (disk : Disk) (ts : List Transfer) : Prop where
  kept : ∀ place, store.Encloses disk place → (disk.contentAt? place).isSome →
    disk.contentFrom? (originOf ts place) = disk.contentAt? place
  arrived : ∀ t ∈ ts, disk.contentFrom? (originOf ts t.target) = disk.contentAt? t.source

/-- No file is copied to where one is read or where the store has one, and only one to each place. -/
structure Apart (store : ImageStore) (disk : Disk) (ts : List Transfer) : Prop where
  unread : ∀ s ∈ ts, ∀ t ∈ ts, t.target ≠ s.source
  single : ∀ s ∈ ts, ∀ t ∈ ts, s.target = t.target → s.source = t.source
  vacant : ∀ t ∈ ts, store.Encloses disk t.target → disk.contentAt? t.target = none

theorem Apart.untangled {ts : List Transfer} (apart : store.Apart disk ts) :
    store.Untangled disk ts where
  kept place inside file := by
    have other : ∀ t ∈ ts, t.target ≠ place := by
      rintro t mem rfl
      rw [apart.vacant t mem inside] at file
      cases file
    rw [Transfer.originOf_eq_self other]
    rfl
  arrived t mem := by
    rw [Transfer.originOf_target mem apart.unread fun u among => apart.single u among t mem]
    rfl

section FileNames

variable {images : List Image}

theorem mem_transfers_iff {t : Transfer} : t ∈ store.transfers directory disk images ↔
    ∃ image ∈ images, store.transfer? directory disk image = some t :=
  List.mem_filterMap

theorem transfer?_of_isFileName {t : Transfer} (plain : Path.IsFileName image.fileName)
    (transfer : store.transfer? directory disk image = some t) :
    t.source = disk.destination store.directory ++ [image.fileName] ∧
      t.target = disk.destination directory ++ [image.fileName] := by
  obtain ⟨source, target⟩ := transfer?_eq_some_iff.1 transfer
  constructor
  · rw [Disk.locate?_eq_some source]
    exact Disk.destination_join_of_isFileName store.directory plain
  · rw [Disk.locate?_eq_some target]
    exact Disk.destination_join_of_isFileName directory plain

/-- Files with plain names do not get in each other's way, unless they are copied into the directory
that they are in or one below it. -/
theorem apart_of_isFileName (plain : ∀ image ∈ images, Path.IsFileName image.fileName)
    (outside : ¬disk.destination store.directory <+: disk.destination directory) :
    store.Apart disk (store.transfers directory disk images) where
  unread s mem t mem' same := by
    obtain ⟨image, among, transfer⟩ := mem_transfers_iff.1 mem
    obtain ⟨image', among', transfer'⟩ := mem_transfers_iff.1 mem'
    rw [(transfer?_of_isFileName (plain image among) transfer).1,
      (transfer?_of_isFileName (plain image' among') transfer').2] at same
    have home : disk.destination directory = disk.destination store.directory :=
      (List.append_inj' same rfl).1
    exact outside (home ▸ List.prefix_rfl)
  single s mem t mem' same := by
    obtain ⟨image, among, transfer⟩ := mem_transfers_iff.1 mem
    obtain ⟨image', among', transfer'⟩ := mem_transfers_iff.1 mem'
    obtain ⟨source, target⟩ := transfer?_of_isFileName (plain image among) transfer
    obtain ⟨source', target'⟩ := transfer?_of_isFileName (plain image' among') transfer'
    rw [target, target'] at same
    rw [source, source', (List.append_inj' same rfl).2]
  vacant t mem inside := by
    obtain ⟨image, among, transfer⟩ := mem_transfers_iff.1 mem
    obtain ⟨below, proper⟩ := inside
    rw [(transfer?_of_isFileName (plain image among) transfer).2] at below proper
    rcases List.prefix_concat_iff.1 below with same | below
    · exact absurd same proper
    · exact absurd below outside

end FileNames

namespace Copying

variable {images copied failed : List Image}

/-- The files are as they should be after copying iff the copies were untangled. -/
theorem faithful_iff (copying : store.Copying directory images disk copied failed disk') :
    store.Faithful directory copied disk disk' ↔
      store.Untangled disk (store.transfers directory disk copied) := by
  constructor
  · intro faithful
    refine ⟨fun place inside file => ?_, fun t mem => ?_⟩
    · obtain ⟨content, file⟩ := Option.isSome_iff_exists.1 file
      rw [← copying.contentAt?, file, faithful.kept place content inside file]
    · obtain ⟨image, among, transfer⟩ := mem_transfers_iff.1 mem
      obtain ⟨source, target⟩ := transfer?_eq_some_iff.1 transfer
      obtain ⟨content, before, after⟩ := faithful.arrived image among
      rw [Disk.content?_eq, source, Option.bind_some] at before
      rw [Disk.content?_eq, copying.locate?, target, Option.bind_some] at after
      rw [← copying.contentAt?, before, after]
  · intro untangled
    refine ⟨fun place content inside file => ?_, fun image among => ?_⟩
    · rw [copying.contentAt?, untangled.kept place inside (Option.isSome_of_eq_some file), file]
    · obtain ⟨t, transfer, file⟩ := copying.exists_transfer among
      obtain ⟨source, target⟩ := transfer?_eq_some_iff.1 transfer
      obtain ⟨content, after⟩ := Option.isSome_iff_exists.1 file
      refine ⟨content, ?_, ?_⟩
      · have arrived := untangled.arrived t (mem_transfers_iff.2 ⟨image, among, transfer⟩)
        rw [← copying.contentAt?, after] at arrived
        rw [Disk.content?_eq, source, Option.bind_some, ← arrived]
      · rw [Disk.content?_eq, copying.locate?, target, Option.bind_some, after]

theorem content?_eq_empty (copying : store.Copying directory images disk copied failed disk')
    (ontoItself : ∀ image ∈ copied, disk.locate? (Path.join directory image.fileName) =
      disk.locate? (store.path image.fileName)) (mem : image ∈ copied) :
    disk'.content? (store.path image.fileName) = some .empty := by
  have same : ∀ t ∈ store.transfers directory disk copied, t.target = t.source := by
    intro t among
    obtain ⟨image, among, transfer⟩ := mem_transfers_iff.1 among
    obtain ⟨source, target⟩ := transfer?_eq_some_iff.1 transfer
    rw [ontoItself image among, source] at target
    exact (Option.some.inj target).symm
  obtain ⟨t, transfer, -⟩ := copying.exists_transfer mem
  have among := mem_transfers_iff.2 ⟨image, mem, transfer⟩
  obtain ⟨source, -⟩ := transfer?_eq_some_iff.1 transfer
  obtain ⟨place, target⟩ := t
  obtain rfl : target = place := same _ among
  rw [Disk.content?_eq, copying.locate?, source, Option.bind_some, copying.contentAt?,
    Transfer.originOf_eq_none among fun u among' there => (same u among').symm.trans there]
  rfl

end Copying

end ImageStore

namespace Dataset

open ImageStore (Copying)

theorem copyFiles_copying (store : ImageStore) (directory : String) (images : List Image)
    (disk : Disk) : ∃ copied failed,
      store.Copying directory images disk copied failed (copyFiles store directory images disk).2 ∧
        (copyFiles store directory images disk).1 =
          { copied := copied.length, failed := failed.map (·.fileName) } := by
  induction images generalizing disk with
  | nil => exact ⟨[], [], .done, rfl⟩
  | cons image images ih =>
    rw [copyFiles]
    rcases ended : store.copyTo image.fileName directory disk with ⟨fault | size, disk₁⟩
    · obtain ⟨copied, failed, copying, report⟩ := ih disk₁
      exact ⟨copied, image :: failed, .failed ended copying, by simp only [report]; rfl⟩
    · obtain ⟨copied, failed, copying, report⟩ := ih disk₁
      exact ⟨image :: copied, failed, .copied ended copying, by simp only [report]; rfl⟩

/-- What copying the files of a dataset leaves. Without a directory it fails and touches nothing.
Otherwise the report counts every image once, and names those whose files could not be copied in
their order. The files of the directory are as before, and those that count as copied are in the
target as they were, iff the copies are untangled; they are if the names are plain and the target is
neither the directory of the files nor below it. Files that are copied onto themselves are empty
afterwards. -/
theorem copyImagesTo_files (d : Dataset) (directory : String) (disk : Disk) :
    match d.copyImagesTo directory disk with
    | (.error fault, disk') => d.store? = none ∧ fault = .noImageDirectory ∧ disk' = disk
    | (.ok report, disk') => ∃ store copied failed, d.store? = some store ∧
        store.Copying directory d.images.records disk copied failed disk' ∧
        report = { copied := copied.length, failed := failed.map (·.fileName) } ∧
        report.copied + report.failed.length = d.images.size ∧
        failed.Sublist d.images.records ∧
        (store.Faithful directory copied disk disk' ↔
          store.Untangled disk (store.transfers directory disk copied)) ∧
        ((∀ image ∈ d.images.records, Path.IsFileName image.fileName) →
          ¬disk.destination store.directory <+: disk.destination directory →
            store.Faithful directory copied disk disk') ∧
        ((∀ image ∈ copied, disk.locate? (Path.join directory image.fileName) =
            disk.locate? (store.path image.fileName)) →
          ∀ image ∈ copied, disk'.content? (store.path image.fileName) = some .empty) := by
  rcases d.copyImagesTo_cases directory disk with
    ⟨unplaced, failed⟩ | ⟨store, report, disk', placed, done, succeeded⟩
  · rw [failed]
    exact ⟨unplaced, rfl, rfl⟩
  · obtain ⟨copied, failed, copying, counts⟩ :=
      copyFiles_copying store directory d.images.records disk
    rw [done] at copying counts
    subst counts
    rw [succeeded]
    refine ⟨store, copied, failed, placed, copying, rfl, ?_, copying.sublist.2,
      copying.faithful_iff, fun plain outside => ?_, fun ontoItself image => ?_⟩
    · rw [List.length_map]
      exact copying.length
    · refine copying.faithful_iff.2 (ImageStore.Apart.untangled ?_)
      exact ImageStore.apart_of_isFileName
        (fun image among => plain image (copying.sublist.1.subset among)) outside
    · exact copying.content?_eq_empty ontoItself

/-- The file of the image is copied onto itself, counts as copied, and is empty. -/
theorem shelf_copyImagesTo :
    let (result, disk) := shelf.copyImagesTo "imgs" shelfDisk
    result = .ok { copied := 1, failed := [] } ∧
      shelfDisk.content? "imgs/a.png" = some ⟨#[120]⟩ ∧ disk.content? "imgs/a.png" = some .empty :=
  ⟨rfl, rfl, rfl⟩

end Dataset

end ImageCatalog
