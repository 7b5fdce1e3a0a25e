import ImageCatalog.Dataset.Disk
import ImageCatalog.Dataset.Fault

set_option autoImplicit false

namespace ImageCatalog

structure ImageStore where
  directory : String
deriving DecidableEq, Inhabited

namespace ImageStore

def path (store : ImageStore) (fileName : String) : String := Path.join store.directory fileName

/-- The result of a file operation, or the fault of a file that it failed on. -/
def orFault {α : Type} (path : String) : Option α × Disk → Except DatasetFault α × Disk
  | (some result, disk) => (.ok result, disk)
  | (none, disk) => (.error (.io path), disk)

def exists? (store : ImageStore) (fileName : String) (disk : Disk) : Bool × Disk :=
  disk.probe (store.path fileName)

def read (store : ImageStore) (fileName : String) (disk : Disk) :
    Except DatasetFault ByteArray × Disk :=
  orFault (store.path fileName) (disk.read (store.path fileName))

def save (store : ImageStore) (fileName : String) (content : ByteArray) (disk : Disk) :
    Except DatasetFault Unit × Disk :=
  orFault (store.path fileName) (disk.write (store.path fileName) content)

def delete (store : ImageStore) (fileName : String) (disk : Disk) :
    Except DatasetFault Unit × Disk :=
  orFault (store.path fileName) (disk.delete (store.path fileName))

def copyTo (store : ImageStore) (fileName directory : String) (disk : Disk) :
    Except DatasetFault Nat × Disk :=
  orFault (store.path fileName)
    (disk.copy (store.path fileName) (Path.join directory fileName))

end ImageStore

end ImageCatalog
