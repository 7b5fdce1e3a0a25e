import ImageCatalog.Catalog.Annotation
import ImageCatalog.Catalog.Category
import ImageCatalog.Catalog.Image
import ImageCatalog.Catalog.License
import ImageCatalog.Query.Run

set_option autoImplicit false

namespace ImageCatalog

/-- The images whose license is among the given ones; all of them if no licenses are given. -/
def licensedImages (images : Table Image) : Option (Table License) → Except Fault (Table Image)
  | some licenses => images.restrictToPeer "license" licenses "id"
  | none => .ok images

namespace Query

/-- Annotations on the given images and of the given categories. -/
def linkAnnotations (q : Query) (images : Option (Table Image))
    (categories : Option (Table Category)) (licenses : Option (Table License)) :
    Except Fault Query := do
  let onImages ← match images with
    | some images => (licensedImages images licenses).bind fun images =>
      Intersection.memberOf {} "image_id" images "id"
    | none => .ok {}
  let ofCategories ← match categories with
    | some categories => onImages.memberOf "category_id" categories "id"
    | none => .ok onImages
  return q.constrain ofCategories

/-- Images under the given licenses with an annotation of the given categories. -/
def linkImages (q : Query) (annotations : Table Annotation)
    (categories : Option (Table Category)) (licenses : Option (Table License)) :
    Except Fault Query := do
  let licensed ← match licenses with
    | some licenses => Intersection.memberOf {} "license" licenses "id"
    | none => .ok {}
  let referring ← match categories with
    | some categories => annotations.restrictToPeer "category_id" categories "id"
    | none => .ok annotations
  let annotated ← licensed.memberOf "id" referring "image_id"
  return q.constrain annotated

/-- Categories of the given annotations, of those on the given images only. -/
def linkCategories (q : Query) (annotations : Table Annotation) (images : Option (Table Image))
    (licenses : Option (Table License)) : Except Fault Query := do
  let referring ← match images with
    | some images => (licensedImages images licenses).bind fun images =>
      annotations.restrictToPeer "image_id" images "id"
    | none => .ok annotations
  let used ← Intersection.memberOf {} "id" referring "category_id"
  return q.constrain used

/-- Licenses of the given images. -/
def linkLicenses (q : Query) (images : Table Image) : Except Fault Query := do
  let used ← Intersection.memberOf {} "id" images "license"
  return q.constrain used

end Query

end ImageCatalog
