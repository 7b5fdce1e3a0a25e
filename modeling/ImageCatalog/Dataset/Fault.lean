import ImageCatalog.Catalog.Document

set_option autoImplicit false

namespace ImageCatalog

inductive DatasetFault where
  /-- A record or a query is at fault. -/
  | fault (cause : Fault)
  /-- An operation on the file at this path failed. -/
  | io (path : String)
  /-- A directory stands at this path in place of a document. -/
  | directory (path : String)
  /-- The file at this path holds no document. -/
  | document (path : String) (refusal : JsonText.Refusal)
  | entry (cause : EntryFault)
  | noImageDirectory
deriving DecidableEq

namespace DatasetFault

def noImageDirectoryMessage : String := "dataset has no image directory"

end DatasetFault

end ImageCatalog
