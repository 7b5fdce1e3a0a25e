import ImageCatalog.Dataset.Config
import ImageCatalog.Dataset.ImageStore

/-! Datasets: a catalog with the place of its document and the directory of its image files. An
operation on a dataset gives its outcome and what dataset and disk are like afterwards, whether it
succeeds or fails. -/

set_option autoImplicit false

namespace ImageCatalog

structure Dataset where
  path : String
  config : DatasetConfig := {}
  info : Info := {}
  sections : Sections
deriving Inhabited

/-- How many files were copied, and the names of those that could not be. -/
structure CopyReport where
  copied : Nat := 0
  failed : List String := []
deriving DecidableEq, Inhabited

namespace CopyReport

def isComplete (report : CopyReport) : Bool := report.failed.isEmpty

end CopyReport

namespace Dataset

def empty (path : String) (config : DatasetConfig := {}) : Dataset :=
  { path, config, sections := .empty config.idPolicy }

def store? (d : Dataset) : Option ImageStore := d.config.imagesDirectory.map ImageStore.mk

def requireStore (d : Dataset) : Except DatasetFault ImageStore :=
  match d.store? with
  | some store => .ok store
  | none => .error .noImageDirectory

def setImagesDirectory (d : Dataset) (directory : String) : Dataset :=
  { d with config := { d.config with imagesDirectory := some directory } }

def setImages (d : Dataset) (images : Table Image) : Dataset :=
  { d with sections := { d.sections with images } }

def images (d : Dataset) : Table Image := d.sections.images

def ofDocument (path : String) (document : Document) (config : DatasetConfig) :
    Except DatasetFault Dataset :=
  match document.sections config.idPolicy with
  | .error cause => .error (.entry cause)
  | .ok sections => .ok { path, config, info := document.info.getD {}, sections }

def toDocument (d : Dataset) : Document := .ofSections d.info d.sections

/-- The document in a file. A directory holds none. -/
def readDocument (path : String) (disk : Disk) : Except DatasetFault Document × Disk :=
  match disk.read path with
  | (none, disk) =>
    (.error (if disk.leadsToDirectory path then .directory path else .io path), disk)
  | (some content, disk) =>
    match JsonText.readAll Document.reader (Text.decode content) with
    | .error refusal => (.error (.document path refusal), disk)
    | .ok document => (.ok document, disk)

def load (path : String) (config : DatasetConfig) (disk : Disk) :
    Except DatasetFault Dataset × Disk :=
  match readDocument path disk with
  | (.error fault, disk) => (.error fault, disk)
  | (.ok document, disk) => (ofDocument path document config, disk)

/-- The dataset in a file, or an empty one if there is no such file. -/
def loadOrEmpty (path : String) (config : DatasetConfig) (disk : Disk) :
    Except DatasetFault Dataset × Disk :=
  match disk.probe path with
  | (true, disk) => load path config disk
  | (false, disk) => (.ok (empty path config), disk)

/-- Writes the document, under another path if one is given. -/
def save (d : Dataset) (path : Option String) (disk : Disk) : Except DatasetFault Unit × Disk :=
  let path := path.getD d.path
  ImageStore.orFault path (disk.write path (d.toDocument.pretty d.config.indent).toUTF8)

/-- Copies the files of images, going on where one cannot be copied. -/
def copyFiles (store : ImageStore) (directory : String) : List Image → Disk → CopyReport × Disk
  | [], disk => ({}, disk)
  | image :: images, disk =>
    match store.copyTo image.fileName directory disk with
    | (.ok _, disk) =>
      let (report, disk) := copyFiles store directory images disk
      ({ report with copied := report.copied + 1 }, disk)
    | (.error _, disk) =>
      let (report, disk) := copyFiles store directory images disk
      ({ report with failed := image.fileName :: report.failed }, disk)

def copyImagesTo (d : Dataset) (directory : String) (disk : Disk) :
    Except DatasetFault CopyReport × Disk :=
  match d.requireStore with
  | .error fault => (.error fault, disk)
  | .ok store =>
    let (report, disk) := copyFiles store directory d.images.records disk
    (.ok report, disk)

def saveWithImages (d : Dataset) (path : Option String) (directory : String) (disk : Disk) :
    Except DatasetFault CopyReport × Disk :=
  match d.save path disk with
  | (.error fault, disk) => (.error fault, disk)
  | (.ok _, disk) => d.copyImagesTo directory disk

/-- The part of the dataset that the queries leave. With a directory, its image files are copied
there and belong to the new dataset; with `inPlace`, the dataset itself is left with that part. -/
def filter (d : Dataset) (queries : SectionQueries) (inPlace : Bool) (directory : Option String)
    (disk : Disk) : Except DatasetFault Dataset × Dataset × Disk :=
  match d.sections.filter queries with
  | .error cause => (.error (.fault cause), d, disk)
  | .ok sections =>
    let filtered := { d with sections }
    let rest := if inPlace then filtered else d
    match directory with
    | none => (.ok filtered, rest, disk)
    | some directory =>
      match filtered.copyImagesTo directory disk with
      | (.error fault, disk) => (.error fault, d, disk)
      | (.ok _, disk) => (.ok (filtered.setImagesDirectory directory), rest, disk)

/-- The store that is needed to write `content`; none is needed if there is no content. -/
def storeFor (d : Dataset) {α : Type} :
    Option α → Except DatasetFault (Option (ImageStore × α))
  | none => .ok none
  | some content => d.requireStore.map fun store => some (store, content)

/-- Adds an image and writes its file; if that fails, the record with its number is removed. -/
def appendWithImage (d : Dataset) (image : Image) (content : Option ByteArray) (disk : Disk) :
    Except DatasetFault RecordId × Dataset × Disk :=
  match d.storeFor content with
  | .error fault => (.error fault, d, disk)
  | .ok file =>
    match d.images.append image with
    | (.error cause, _) => (.error (.fault cause), d, disk)
    | (.ok id, images) =>
      match file with
      | none => (.ok id, d.setImages images, disk)
      | some (store, content) =>
        match store.save image.fileName content disk with
        | (.ok _, disk) => (.ok id, d.setImages images, disk)
        | (.error fault, disk) => (.error fault, d.setImages (images.delete id).2, disk)

/-- Writes the file of an image under its new name and removes the one under the old name. -/
def replaceFile (store : ImageStore) (oldName newName : String) (content : ByteArray)
    (disk : Disk) : Except DatasetFault Unit × Disk :=
  match store.save newName content disk with
  | (.error fault, disk) => (.error fault, disk)
  | (.ok _, disk) =>
    if oldName = newName then (.ok (), disk)
    else
      match store.exists? oldName disk with
      | (false, disk) => (.ok (), disk)
      | (true, disk) => store.delete oldName disk

/-- Replaces the first image that has the number of `image`, and its file if there is content. -/
def updateWithImage (d : Dataset) (image : Image) (content : Option ByteArray) (disk : Disk) :
    Except DatasetFault (Option RecordId) × Dataset × Disk :=
  match d.images.get? image.id with
  | none => (.ok none, d, disk)
  | some old =>
    match d.storeFor content with
    | .error fault => (.error fault, d, disk)
    | .ok file =>
      let (id, images) := d.images.update image
      match file with
      | none => (.ok id, d.setImages images, disk)
      | some (store, content) =>
        match replaceFile store old.fileName image.fileName content disk with
        | (.error fault, disk) => (.error fault, d, disk)
        | (.ok _, disk) => (.ok id, d.setImages images, disk)

/-- Removes the first image with a number, and its file if that is asked for. -/
def deleteWithImage (d : Dataset) (id : RecordId) (deleteFile : Bool) (disk : Disk) :
    Except DatasetFault (Option Image) × Dataset × Disk :=
  match d.storeFor (if deleteFile then some () else none) with
  | .error fault => (.error fault, d, disk)
  | .ok file =>
    let (removed, images) := d.images.delete id
    match file, removed with
    | some (store, _), some image =>
      match store.delete image.fileName disk with
      | (.error fault, disk) => (.error fault, d.setImages images, disk)
      | (.ok _, disk) => (.ok removed, d.setImages images, disk)
    | _, _ => (.ok removed, d.setImages images, disk)

end Dataset

end ImageCatalog
