import ImageCatalog.Json.Value
import ImageCatalog.Record.Table

set_option autoImplicit false

namespace ImageCatalog

/-- The upright rectangle around an object. -/
structure Box where
  x : Binary64
  y : Binary64
  width : Binary64
  height : Binary64
deriving DecidableEq, Inhabited

namespace Box

def toList (box : Box) : List Binary64 := [box.x, box.y, box.width, box.height]

/-- The same numbers, where a NaN differs from every number. -/
def equal (a b : Box) : Bool :=
  a.x.numEq b.x && a.y.numEq b.y && a.width.numEq b.width && a.height.numEq b.height

end Box

structure Annotation where
  id : RecordId := 0
  imageId : RecordId
  categoryId : RecordId
  box : Box
  isCrowd : Int64 := 0
  segmentation : Option Json := none
  area : Option Binary64 := none
deriving Inhabited

namespace Annotation

def equalArea : Option Binary64 → Option Binary64 → Bool
  | some a, some b => a.numEq b
  | none, none => true
  | _, _ => false

/-- Equality of annotations, by the numbers that their boxes and areas denote. -/
instance : BEq Annotation where
  beq a b :=
    a.id == b.id && a.imageId == b.imageId && a.categoryId == b.categoryId && a.box.equal b.box
      && a.isCrowd == b.isCrowd && a.segmentation == b.segmentation && equalArea a.area b.area

def segmentationValue (a : Annotation) : Value :=
  .ofOption (a.segmentation.map Value.ofJson)

def field? (a : Annotation) : String → Option Value
  | "id" => some (.ofUInt64 a.id)
  | "image_id" => some (.ofUInt64 a.imageId)
  | "category_id" => some (.ofUInt64 a.categoryId)
  | "segmentation" => some a.segmentationValue
  | "area" => some (.ofFloat? a.area)
  | "bbox" => some (.list (a.box.toList.map Value.float))
  | "iscrowd" => some (.int a.isCrowd)
  | _ => none

instance : Record Annotation where
  kind := "annotation"
  fieldNames := ["id", "image_id", "category_id", "segmentation", "area", "bbox", "iscrowd"]
  idOf := id
  withId n a := { a with id := n }
  field? := field?
  idOf_withId _ _ := rfl

def boxFault (got : Option DataType) : Fault := .malformedField "annotation" "bbox" .list got

def boxNumber (item : Value) : Except Fault Binary64 :=
  match item.number? with
  | some x => .ok x
  | none => .error (boxFault item.dataType?)

def readBox (fields : Fields) : Except Fault Box := do
  match ← fields.requireList "annotation" "bbox" with
  | [x, y, width, height] =>
    let x ← boxNumber x
    let y ← boxNumber y
    let width ← boxNumber width
    let height ← boxNumber height
    return { x, y, width, height }
  | _ => throw (boxFault (some .list))

def ofFields (fields : Fields) : Except Fault Annotation := do
  let id ← fields.recordId "annotation"
  let imageId ← fields.requireKey "annotation" "image_id"
  let categoryId ← fields.requireKey "annotation" "category_id"
  let box ← readBox fields
  let isCrowd ← fields.optionalInt "annotation" "iscrowd"
  let segmentation := (fields.optional? "segmentation").map Value.toJson
  let area ← fields.optionalFloat "annotation" "area"
  return { id, imageId, categoryId, box, isCrowd := isCrowd.getD 0, segmentation, area }

instance : FieldRecord Annotation where
  ofFields := ofFields
  toFields := Record.allFields

end Annotation

end ImageCatalog
