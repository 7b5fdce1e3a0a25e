set_option autoImplicit false

namespace ImageCatalog

/-- Where a file or directory is: the names from the root to it. -/
abbrev Location := List String

/-- What is stored at a location. -/
inductive Entry where
  | file (content : ByteArray)
  | directory
deriving Inhabited

inductive FileOperation where
  | probe (path : String)
  | read (path : String)
  | write (path : String)
  | delete (path : String)
  | copy (source target : String)
deriving DecidableEq

structure Disk where
  entries : List (Location × Entry)
  /-- Where relative paths start. -/
  workingDirectory : Location
  /-- Whether the disk refuses an operation, given how many were performed before it. -/
  refuses : Nat → FileOperation → Bool
  performed : Nat := 0

namespace Path

/-- The names of a path, the empty ones included. -/
def names : List Char → List (List Char)
  | [] => [[]]
  | c :: cs =>
    if c = '/' then [] :: names cs
    else match names cs with
      | [] => [[c]]
      | name :: others => (c :: name) :: others

def isAbsolute (path : String) : Bool := path.toList.head? == some '/'

/-- The path of a name in a directory; an absolute name stands for itself. -/
def join (directory name : String) : String :=
  if isAbsolute name then name
  else if directory.isEmpty || directory.toList.getLast? == some '/' then directory ++ name
  else directory ++ "/" ++ name

/-- A name and a path may not be too long, and no path has a null character. -/
def isUsable (path : String) : Bool :=
  !path.isEmpty && decide (path.utf8ByteSize < 4096) && !path.toList.contains '\x00'
    && (names path.toList).all fun name => decide ((String.ofList name).utf8ByteSize ≤ 255)

end Path

namespace Disk

/-- A disk that refuses nothing, with an empty working directory. -/
def blank : Disk :=
  { entries := [(["scratch"], .directory)]
    workingDirectory := ["scratch"]
    refuses := fun _ _ => false }

def entryAt? (disk : Disk) (location : Location) : Option Entry :=
  if location.isEmpty then some .directory else disk.entries.lookup location

def isDirectory (disk : Disk) (location : Location) : Bool :=
  match disk.entryAt? location with
  | some .directory => true
  | _ => false

def step (location : Location) (name : String) : Location :=
  if name = "" ∨ name = "." then location
  else if name = ".." then location.dropLast
  else location ++ [name]

/-- Follows names from a directory; every name but the last has to lead to a directory. -/
def follow? (disk : Disk) (location : Location) : List String → Option Location
  | [] => some location
  | [name] => some (step location name)
  | name :: next :: names =>
    if disk.isDirectory (step location name) then
      disk.follow? (step location name) (next :: names)
    else none

/-- The location that a path leads to, whether or not there is something. -/
def locate? (disk : Disk) (path : String) : Option Location :=
  if Path.isUsable path then
    disk.follow? (if Path.isAbsolute path then [] else disk.workingDirectory)
      ((Path.names path.toList).map String.ofList)
  else none

def leadsToDirectory (disk : Disk) (path : String) : Bool :=
  (disk.locate? path).any disk.isDirectory

def file? (disk : Disk) (path : String) : Option (Location × ByteArray) :=
  match disk.locate? path with
  | some location =>
    match disk.entryAt? location with
    | some (.file content) => some (location, content)
    | _ => none
  | none => none

def content? (disk : Disk) (path : String) : Option ByteArray := (disk.file? path).map Prod.snd

/-- The location at which a file can be written under a path. -/
def target? (disk : Disk) (path : String) : Option Location :=
  (disk.locate? path).filter fun location => !disk.isDirectory location

def put (disk : Disk) (location : Location) (entry : Entry) : Disk :=
  { disk with entries := (location, entry) :: disk.entries.filter fun e => e.1 != location }

def remove (disk : Disk) (location : Location) : Disk :=
  { disk with entries := disk.entries.filter fun e => e.1 != location }

/-- Counts an operation, and tells whether the disk allows it. -/
def attempt (disk : Disk) (operation : FileOperation) : Bool × Disk :=
  (!disk.refuses disk.performed operation, { disk with performed := disk.performed + 1 })

def probe (disk : Disk) (path : String) : Bool × Disk :=
  let (allowed, disk) := disk.attempt (.probe path)
  (allowed && (disk.file? path).isSome, disk)

def read (disk : Disk) (path : String) : Option ByteArray × Disk :=
  let (allowed, disk) := disk.attempt (.read path)
  (if allowed then disk.content? path else none, disk)

def write (disk : Disk) (path : String) (content : ByteArray) : Option Unit × Disk :=
  let (allowed, disk) := disk.attempt (.write path)
  match if allowed then disk.target? path else none with
  | some location => (some (), disk.put location (.file content))
  | none => (none, disk)

def delete (disk : Disk) (path : String) : Option Unit × Disk :=
  let (allowed, disk) := disk.attempt (.delete path)
  match if allowed then disk.file? path else none with
  | some (location, _) => (some (), disk.remove location)
  | none => (none, disk)

/-- Copies a file and gives the number of bytes. The target is emptied before the source is read,
so a file copied onto itself ends up empty. -/
def copy (disk : Disk) (source target : String) : Option Nat × Disk :=
  let (allowed, disk) := disk.attempt (.copy source target)
  match if allowed then disk.file? source else none, disk.target? target with
  | some _, some location =>
    let emptied := disk.put location (.file .empty)
    match emptied.file? source with
    | some (_, content) => (some content.size, emptied.put location (.file content))
    | none => (none, emptied)
  | _, _ => (none, disk)

def makeDirectories (disk : Disk) (path : String) : Disk :=
  let start := if Path.isAbsolute path then [] else disk.workingDirectory
  let add (state : Location × Disk) (name : List Char) : Location × Disk :=
    let location := step state.1 (String.ofList name)
    (location, if (state.2.entryAt? location).isSome then state.2
      else state.2.put location .directory)
  ((Path.names path.toList).foldl add (start, disk)).2

/-- The names in a directory, in ascending order. -/
def list (disk : Disk) (path : String) : List String :=
  match disk.locate? path with
  | some location =>
    (disk.entries.filterMap fun e =>
      if e.1.dropLast == location && !e.1.isEmpty then e.1.getLast? else none).mergeSort
        fun a b => decide (a ≤ b)
  | none => []

end Disk

end ImageCatalog
