import ImageCatalog.Dataset.Disk

set_option autoImplicit false

namespace ImageCatalog

def Entry.content? : Entry → Option ByteArray
  | .file content => some content
  | .directory => none

namespace Disk

def contentAt? (disk : Disk) (location : Location) : Option ByteArray :=
  (disk.entryAt? location).bind Entry.content?

theorem file?_eq_some_iff {disk : Disk} {path : String} {location : Location}
    {content : ByteArray} : disk.file? path = some (location, content) ↔
      disk.locate? path = some location ∧ disk.contentAt? location = some content := by
  rw [file?]
  cases disk.locate? path with
  | none => simp
  | some found =>
    simp only [Option.some.injEq, contentAt?]
    constructor
    · intro file
      rcases entry : disk.entryAt? found with _ | _ | _ <;> simp [entry] at file
      obtain ⟨rfl, rfl⟩ := file
      exact ⟨rfl, by rw [entry]; rfl⟩
    · rintro ⟨rfl, file⟩
      rcases entry : disk.entryAt? found with _ | _ | _ <;> simp [entry, Entry.content?] at file ⊢
      exact file

theorem content?_eq (disk : Disk) (path : String) :
    disk.content? path = (disk.locate? path).bind disk.contentAt? := by
  refine Option.ext fun content => ?_
  rw [content?, Option.map_eq_some_iff, Option.bind_eq_some_iff]
  constructor
  · rintro ⟨⟨location, _⟩, file, rfl⟩
    exact ⟨location, file?_eq_some_iff.1 file⟩
  · rintro ⟨location, file⟩
    exact ⟨(location, content), file?_eq_some_iff.2 file, rfl⟩

theorem isDirectory_of_contentAt? {disk : Disk} {location : Location} {content : ByteArray}
    (file : disk.contentAt? location = some content) : disk.isDirectory location = false := by
  obtain ⟨entry, found, content⟩ := Option.bind_eq_some_iff.1 file
  rw [isDirectory, found]
  cases entry with
  | file => rfl
  | directory => cases content

theorem locate?_congr {disk disk' : Disk} (start : disk'.workingDirectory = disk.workingDirectory)
    (same : ∀ location, disk'.isDirectory location = disk.isDirectory location) (path : String) :
    disk'.locate? path = disk.locate? path := by
  have follows (names : List String) (location : Location) :
      disk'.follow? location names = disk.follow? location names := by
    induction names generalizing location with
    | nil => rfl
    | cons name names ih =>
      cases names with
      | nil => rfl
      | cons next names => rw [follow?, follow?, same, ih]
  rw [locate?, locate?, start, follows]

theorem locate?_attempt (disk : Disk) (operation : FileOperation) (path : String) :
    (disk.attempt operation).2.locate? path = disk.locate? path :=
  @locate?_congr disk (disk.attempt operation).2 rfl (fun _ => rfl) path

private theorem lookup_filter_ne (entries : List (Location × Entry)) (location other : Location) :
    (entries.filter fun e => e.1 != location).lookup other =
      if other = location then none else entries.lookup other := by
  induction entries with
  | nil => simp
  | cons e entries ih =>
    obtain ⟨place, entry⟩ := e
    by_cases kept : place = location
    · subst kept
      rw [List.filter_cons_of_neg (by simp), ih]
      by_cases same : other = place
      · rw [if_pos same, if_pos same]
      · rw [if_neg same, if_neg same, List.lookup_cons, beq_false_of_ne same]
    · rw [List.filter_cons_of_pos (by simpa using kept), List.lookup_cons, List.lookup_cons, ih]
      by_cases same : other = place
      · subst same
        simp [kept]
      · rw [beq_false_of_ne same]

variable {disk : Disk} {location : Location}

theorem ne_nil_of_isDirectory (free : disk.isDirectory location = false) : location ≠ [] := by
  rintro rfl
  simp [isDirectory, entryAt?] at free

theorem entryAt?_remove (free : disk.isDirectory location = false) (other : Location) :
    (disk.remove location).entryAt? other =
      if other = location then none else disk.entryAt? other := by
  have nonempty := ne_nil_of_isDirectory free
  cases other with
  | nil => rw [if_neg nonempty.symm]; rfl
  | cons name names => exact lookup_filter_ne disk.entries location (name :: names)

theorem entryAt?_put (free : disk.isDirectory location = false) (entry : Entry) (other : Location) :
    (disk.put location entry).entryAt? other =
      if other = location then some entry else disk.entryAt? other := by
  have removed := entryAt?_remove free other
  by_cases same : other = location
  · subst same
    rw [if_pos rfl, entryAt?, put, List.lookup_cons, beq_self_eq_true,
      List.isEmpty_eq_false_iff.2 (ne_nil_of_isDirectory free)]
    rfl
  · rw [if_neg same] at removed ⊢
    rw [← removed, entryAt?, entryAt?, put, List.lookup_cons, beq_false_of_ne same]
    rfl

/-- The disk after an operation that made the file at a location another one, or removed it. -/
structure Changed (location : Location) (content : Option ByteArray) (disk disk' : Disk) : Prop where
  free : disk.isDirectory location = false
  entryAt? : ∀ other, disk'.entryAt? other =
    if other = location then content.map Entry.file else disk.entryAt? other
  workingDirectory : disk'.workingDirectory = disk.workingDirectory
  refuses : disk'.refuses = disk.refuses
  performed : disk'.performed = disk.performed + 1

variable {content : Option ByteArray} {disk' : Disk}

theorem Changed.contentAt? (changed : Changed location content disk disk') (other : Location) :
    disk'.contentAt? other = if other = location then content else disk.contentAt? other := by
  rw [Disk.contentAt?, Disk.contentAt?, changed.entryAt?]
  split
  · cases content <;> rfl
  · rfl

theorem Changed.isDirectory (changed : Changed location content disk disk') (other : Location) :
    disk'.isDirectory other = disk.isDirectory other := by
  by_cases same : other = location
  · subst same
    rw [changed.free, Disk.isDirectory, changed.entryAt?, if_pos rfl]
    cases content <;> rfl
  · rw [Disk.isDirectory, Disk.isDirectory, changed.entryAt?, if_neg same]

theorem Changed.locate? (changed : Changed location content disk disk') (path : String) :
    disk'.locate? path = disk.locate? path :=
  locate?_congr changed.workingDirectory changed.isDirectory path

theorem Changed.content? (changed : Changed location content disk disk') (path : String) :
    disk'.content? path =
      if disk.locate? path = some location then content else disk.content? path := by
  rw [content?_eq, content?_eq, changed.locate?]
  cases disk.locate? path with
  | none => simp
  | some place => simp [changed.contentAt?]

theorem Changed.of_put {bytes : ByteArray} (free : disk.isDirectory location = false)
    (operation : FileOperation) :
    Changed location (some bytes) disk ((disk.attempt operation).2.put location (.file bytes)) :=
  ⟨free, @entryAt?_put (disk.attempt operation).2 location free _, rfl, rfl, rfl⟩

theorem Changed.put (changed : Changed location content disk disk') (bytes : ByteArray) :
    Changed location (some bytes) disk (disk'.put location (.file bytes)) := by
  have free : disk'.isDirectory location = false := (changed.isDirectory location).trans changed.free
  refine ⟨changed.free, fun other => ?_, changed.workingDirectory, changed.refuses, changed.performed⟩
  rw [entryAt?_put free, changed.entryAt?]
  split <;> rfl

theorem write_eq_some {path : String} {bytes : ByteArray}
    (written : disk.write path bytes = (some (), disk')) :
    ∃ place, disk.locate? path = some place ∧ Changed place (some bytes) disk disk' := by
  rw [write] at written
  dsimp only at written
  split at written
  · next place target =>
    obtain ⟨-, target⟩ := Option.ite_none_right_eq_some.1 target
    obtain ⟨found, free⟩ := Option.filter_eq_some_iff.1 target
    rw [locate?_attempt] at found
    have free : disk.isDirectory place = false := Bool.not_eq_eq_eq_not.1 free
    cases written
    exact ⟨place, found, .of_put free (.write path)⟩
  · cases written

theorem delete_eq_some {path : String} (deleted : disk.delete path = (some (), disk')) :
    ∃ place, disk.locate? path = some place ∧ Changed place none disk disk' := by
  rw [delete] at deleted
  dsimp only at deleted
  split at deleted
  · next place bytes target =>
    obtain ⟨-, target⟩ := Option.ite_none_right_eq_some.1 target
    obtain ⟨found, file⟩ := file?_eq_some_iff.1 target
    rw [locate?_attempt] at found
    have free : disk.isDirectory place = false := isDirectory_of_contentAt? file
    cases deleted
    exact ⟨place, found, free, entryAt?_remove free, rfl, rfl, rfl⟩
  · cases deleted

theorem probe_eq (disk : Disk) (path : String) :
    disk.probe path =
      (!disk.refuses disk.performed (.probe path) && (disk.content? path).isSome,
        (disk.attempt (.probe path)).2) := by
  have same : ((disk.attempt (.probe path)).2.file? path).isSome = (disk.content? path).isSome := by
    rw [content?, Option.isSome_map, file?, file?, locate?_attempt]
    rfl
  rw [← same]
  rfl

theorem content?_attempt (disk : Disk) (operation : FileOperation) (path : String) :
    (disk.attempt operation).2.content? path = disk.content? path := by
  rw [content?_eq, content?_eq, locate?_attempt]
  rfl

end Disk

end ImageCatalog
