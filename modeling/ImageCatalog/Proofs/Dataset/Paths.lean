import ImageCatalog.Dataset.Disk

set_option autoImplicit false

namespace ImageCatalog

namespace Path

/-- A name without a slash that is not another one for a directory. -/
def IsFileName (name : String) : Prop :=
  '/' ∉ name.toList ∧ name ∉ ["", ".", ".."]

instance (name : String) : Decidable (IsFileName name) := inferInstanceAs (Decidable (_ ∧ _))

theorem names_ne_nil (cs : List Char) : names cs ≠ [] := by
  cases cs with
  | nil => simp [names]
  | cons c cs =>
    rw [names]
    split
    · simp
    · split <;> simp

theorem names_append_slash (cs ds : List Char) :
    names (cs ++ '/' :: ds) = names cs ++ names ds := by
  induction cs with
  | nil => rfl
  | cons c cs ih =>
    rw [List.cons_append, names, names, ih]
    split
    · rfl
    · cases split : names cs with
      | nil => exact absurd split (names_ne_nil cs)
      | cons name others => rfl

theorem names_of_notMem {cs : List Char} (flat : '/' ∉ cs) : names cs = [cs] := by
  induction cs with
  | nil => rfl
  | cons c cs ih =>
    obtain ⟨here, there⟩ := not_or.1 (mt List.mem_cons.2 flat)
    rw [names, if_neg (Ne.symm here), ih there]

theorem isAbsolute_append {path : String} (given : path.toList ≠ []) (rest : String) :
    isAbsolute (path ++ rest) = isAbsolute path := by
  rw [isAbsolute, isAbsolute, String.toList_append]
  cases chars : path.toList with
  | nil => exact absurd chars given
  | cons c cs => rfl

theorem IsFileName.isAbsolute {name : String} (plain : IsFileName name) :
    isAbsolute name = false := by
  rw [Path.isAbsolute, beq_eq_false_iff_ne]
  exact fun slash => plain.1 (List.mem_of_mem_head? slash)

end Path

namespace Disk

open ImageCatalog.Path (names isAbsolute IsFileName)

def walk (start : Location) (names : List (List Char)) : Location :=
  names.foldl (fun place name => step place (String.ofList name)) start

def destination (disk : Disk) (path : String) : Location :=
  walk (if isAbsolute path then [] else disk.workingDirectory) (names path.toList)

theorem walk_append (start : Location) (before after : List (List Char)) :
    walk start (before ++ after) = walk (walk start before) after :=
  List.foldl_append

variable {disk : Disk} {path name : String} {place : Location}

theorem follow?_eq_some {start : Location} {names : List (List Char)}
    (leads : disk.follow? start (names.map String.ofList) = some place) :
    place = walk start names := by
  induction names generalizing start with
  | nil =>
    cases leads
    rfl
  | cons name names ih =>
    cases names with
    | nil =>
      cases leads
      rfl
    | cons next names =>
      rw [List.map_cons, List.map_cons, follow?] at leads
      exact ih (Option.ite_none_right_eq_some.1 leads).2

theorem locate?_eq_some (leads : disk.locate? path = some place) : place = disk.destination path := by
  rw [locate?] at leads
  exact follow?_eq_some (Option.ite_none_right_eq_some.1 leads).2

theorem destination_join (directory : String) (relative : isAbsolute name = false) :
    disk.destination (Path.join directory name) =
      walk (disk.destination directory) (names name.toList) := by
  rw [Path.join, if_neg (by simp [relative])]
  by_cases nothing : directory = ""
  · subst nothing
    rw [if_pos (by simp), String.empty_append, destination, relative]
    rfl
  have given : directory.toList ≠ [] := by simpa using nothing
  split
  · next bare =>
    -- the slash at the end of the directory has an empty name behind it, which leads nowhere
    obtain ⟨cs, chars⟩ : ∃ cs, directory.toList = cs ++ ['/'] :=
      List.getLast?_eq_some_iff.1 (by simpa [nothing] using bare)
    have shorter : disk.destination directory =
        walk (if isAbsolute directory then [] else disk.workingDirectory) (names cs) := by
      rw [destination, chars, Path.names_append_slash, walk_append]
      rfl
    rw [shorter, destination, Path.isAbsolute_append given, String.toList_append, chars,
      List.append_assoc, List.singleton_append, Path.names_append_slash, walk_append]
  · have chars : (directory ++ "/" ++ name).toList = directory.toList ++ '/' :: name.toList := by
      simp
    rw [destination, chars, Path.names_append_slash, walk_append, String.append_assoc,
      Path.isAbsolute_append given]
    rfl

theorem destination_join_of_isFileName (directory : String) (plain : IsFileName name) :
    disk.destination (Path.join directory name) = disk.destination directory ++ [name] := by
  have proper : ¬(name = "" ∨ name = ".") ∧ name ≠ ".." := by simpa [not_or, and_assoc] using plain.2
  rw [destination_join directory plain.isAbsolute, Path.names_of_notMem plain.1]
  change step (disk.destination directory) (String.ofList name.toList) = _
  rw [String.ofList_toList, step, if_neg proper.1, if_neg proper.2]

end Disk

end ImageCatalog
