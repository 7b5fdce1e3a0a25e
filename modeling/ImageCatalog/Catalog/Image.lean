import ImageCatalog.Record.Table

set_option autoImplicit false

namespace ImageCatalog

structure Image where
  id : RecordId := 0
  fileName : String
  width : Option Int64 := none
  height : Option Int64 := none
  license : Option RecordId := none
  flickrUrl : Option String := none
  cocoUrl : Option String := none
  dateCaptured : Option String := none
deriving DecidableEq, Inhabited

namespace Image

def field? (image : Image) : String → Option Value
  | "id" => some (.ofUInt64 image.id)
  | "file_name" => some (.string image.fileName)
  | "width" => some (.ofInt64? image.width)
  | "height" => some (.ofInt64? image.height)
  | "license" => some (.ofUInt64? image.license)
  | "flickr_url" => some (.ofString? image.flickrUrl)
  | "coco_url" => some (.ofString? image.cocoUrl)
  | "date_captured" => some (.ofString? image.dateCaptured)
  | _ => none

instance : Record Image where
  kind := "image"
  fieldNames :=
    ["id", "file_name", "width", "height", "license", "flickr_url", "coco_url", "date_captured"]
  idOf := id
  withId n image := { image with id := n }
  field? := field?
  idOf_withId _ _ := rfl

def ofFields (fields : Fields) : Except Fault Image := do
  let id ← fields.recordId "image"
  let fileName ← fields.requireString "image" "file_name"
  let width ← fields.optionalInt "image" "width"
  let height ← fields.optionalInt "image" "height"
  let license ← fields.optionalKey "image" "license"
  let flickrUrl ← fields.optionalString "image" "flickr_url"
  let cocoUrl ← fields.optionalString "image" "coco_url"
  let dateCaptured ← fields.optionalString "image" "date_captured"
  return { id, fileName, width, height, license, flickrUrl, cocoUrl, dateCaptured }

instance : FieldRecord Image where
  ofFields := ofFields
  toFields := Record.allFields

end Image

namespace Table

def imageNamed? (t : Table Image) (fileName : String) : Option Image :=
  t.records.find? fun image => image.fileName == fileName

/-- Removes the first image with this file name. -/
def deleteImageNamed (t : Table Image) (fileName : String) : Option Image × Table Image :=
  t.deleteWhere fun image => image.fileName == fileName

end Table

end ImageCatalog
