import ImageCatalog.Proofs.Dataset.ImageFiles

/-! Filtering a dataset with its files. It succeeds or fails as a whole: it fails only before a file
or a table was touched, and copies that fail on the way do not count as failures. -/

set_option autoImplicit false

namespace ImageCatalog

namespace Dataset

theorem copyImagesTo_cases (d : Dataset) (directory : String) (disk : Disk) :
    d.store? = none ∧ d.copyImagesTo directory disk = (.error .noImageDirectory, disk) ∨
      ∃ store report disk', d.store? = some store ∧
        copyFiles store directory d.images.records disk = (report, disk') ∧
          d.copyImagesTo directory disk = (.ok report, disk') := by
  rw [copyImagesTo, requireStore]
  cases found : d.store? with
  | none => exact Or.inl ⟨rfl, rfl⟩
  | some store => exact Or.inr ⟨store, _, _, rfl, rfl, rfl⟩

def leave (d : Dataset) (sections : Sections) (inPlace : Bool) : Dataset :=
  if inPlace then { d with sections } else d

/-- Every way in which filtering can end. -/
inductive Filtering (d : Dataset) (queries : SectionQueries) (inPlace : Bool)
    (directory : Option String) (disk : Disk) :
    Except DatasetFault Dataset × Dataset × Disk → Prop
  | refused {cause : Fault} : d.sections.filter queries = .error cause →
      Filtering d queries inPlace directory disk (.error (.fault cause), d, disk)
  | unplaced {sections : Sections} {target : String} : d.sections.filter queries = .ok sections →
      directory = some target → d.store? = none →
      Filtering d queries inPlace directory disk (.error .noImageDirectory, d, disk)
  | filtered {sections : Sections} : d.sections.filter queries = .ok sections → directory = none →
      Filtering d queries inPlace directory disk
        (.ok { d with sections }, d.leave sections inPlace, disk)
  | filteredWithFiles {sections : Sections} {target : String} {store : ImageStore}
      {report : CopyReport} {disk' : Disk} : d.sections.filter queries = .ok sections →
      directory = some target → d.store? = some store →
      copyFiles store target sections.images.records disk = (report, disk') →
      Filtering d queries inPlace directory disk
        (.ok ({ d with sections }.setImagesDirectory target), d.leave sections inPlace, disk')

theorem filtering (d : Dataset) (queries : SectionQueries) (inPlace : Bool)
    (directory : Option String) (disk : Disk) :
    d.Filtering queries inPlace directory disk (d.filter queries inPlace directory disk) := by
  rw [filter]
  cases filtered : d.sections.filter queries with
  | error cause => exact .refused filtered
  | ok sections =>
    cases directory with
    | none => exact .filtered filtered rfl
    | some target =>
      rcases copyImagesTo_cases { d with sections } target disk with
        ⟨unplaced, failed⟩ | ⟨store, report, disk', placed, copied, succeeded⟩
      · simp only [failed]
        exact .unplaced filtered rfl unplaced
      · simp only [succeeded]
        exact .filteredWithFiles filtered rfl placed copied

/-- Filtering fails iff the filtering of the tables does, with its fault, or else iff files are to be
copied and the dataset has no directory of them; no file that cannot be copied makes it fail. A
failure leaves dataset and disk as they were. Otherwise the tables are those that filtering leaves,
and with `inPlace` the dataset itself ends up with the same ones; nothing else of it changes, even if
the new dataset has another directory. -/
theorem filter_isAtomic (d : Dataset) (queries : SectionQueries) (inPlace : Bool)
    (directory : Option String) (disk : Disk) :
    (∀ fault, (d.filter queries inPlace directory disk).1 = .error fault ↔
      (∃ cause, d.sections.filter queries = .error cause ∧ fault = .fault cause) ∨
        (∃ sections, d.sections.filter queries = .ok sections) ∧ directory.isSome = true ∧
          d.store? = none ∧ fault = .noImageDirectory) ∧
    match d.filter queries inPlace directory disk with
    | (.error _, after, disk') => after = d ∧ disk' = disk
    | (.ok filtered, after, disk') => d.sections.filter queries = .ok filtered.sections ∧
        filtered.path = d.path ∧ filtered.info = d.info ∧
        filtered.config =
          { d.config with imagesDirectory := directory.or d.config.imagesDirectory } ∧
        after = (if inPlace then { d with sections := filtered.sections } else d) ∧
        (directory = none → disk' = disk) := by
  have ends := d.filtering queries inPlace directory disk
  generalize d.filter queries inPlace directory disk = result at ends ⊢
  cases ends with
  | refused failed =>
    refine ⟨fun fault => ⟨fun is => ?_, ?_⟩, rfl, rfl⟩
    · exact Or.inl ⟨_, failed, (Except.error.inj is).symm⟩
    · rintro (⟨cause, failed', rfl⟩ | ⟨⟨sections, filtered⟩, -⟩)
      · rw [Except.error.inj (failed.symm.trans failed')]
      · simp [failed] at filtered
  | unplaced filtered target unplaced =>
    refine ⟨fun fault => ⟨fun is => ?_, ?_⟩, rfl, rfl⟩
    · exact Or.inr ⟨⟨_, filtered⟩, by simp [target], unplaced, (Except.error.inj is).symm⟩
    · rintro (⟨cause, failed, -⟩ | ⟨-, -, -, rfl⟩)
      · simp [filtered] at failed
      · rfl
  | filtered filtered absent => simp [filtered, absent, leave]
  | filteredWithFiles filtered target placed _ =>
    simp [filtered, target, placed, leave, setImagesDirectory]

end Dataset

end ImageCatalog
