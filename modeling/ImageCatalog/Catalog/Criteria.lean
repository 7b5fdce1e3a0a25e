import ImageCatalog.Query.Basic

set_option autoImplicit false

namespace ImageCatalog

/-- What a named condition is about. -/
inductive Criterion where
  /-- One value of a field. -/
  | value (access : Access)
  /-- Several values of a field. -/
  | values (field : String)
  /-- The values of a field between two bounds. -/
  | range (access : Access)
deriving DecidableEq, Inhabited

namespace Criterion

def boxWidth : Access := .item "bbox" 2

def boxHeight : Access := .item "bbox" 3

def ofImage? : String → Option Criterion
  | "file_name" => some (.value (.ofField "file_name"))
  | "file_names" => some (.values "file_name")
  | "width" => some (.value (.ofField "width"))
  | "width_range" => some (.range (.ofField "width"))
  | "height" => some (.value (.ofField "height"))
  | "height_range" => some (.range (.ofField "height"))
  | "license" => some (.value (.ofField "license"))
  | "licenses" => some (.values "license")
  | "date_captured" => some (.value (.ofField "date_captured"))
  | "date_captured_range" => some (.range (.ofField "date_captured"))
  | _ => none

def ofAnnotation? : String → Option Criterion
  | "image_id" => some (.value (.ofField "image_id"))
  | "image_ids" => some (.values "image_id")
  | "category_id" => some (.value (.ofField "category_id"))
  | "category_ids" => some (.values "category_id")
  | "area" => some (.value (.ofField "area"))
  | "area_range" => some (.range (.ofField "area"))
  | "bbox_width" => some (.value boxWidth)
  | "bbox_width_range" => some (.range boxWidth)
  | "bbox_height" => some (.value boxHeight)
  | "bbox_height_range" => some (.range boxHeight)
  | "iscrowd" => some (.value (.ofField "iscrowd"))
  | _ => none

def ofCategory? : String → Option Criterion
  | "name" => some (.value (.ofField "name"))
  | "names" => some (.values "name")
  | "supercategory" => some (.value (.ofField "supercategory"))
  | "supercategories" => some (.values "supercategory")
  | _ => none

def ofLicense? : String → Option Criterion
  | "name" => some (.value (.ofField "name"))
  | "names" => some (.values "name")
  | "url" => some (.value (.ofField "url"))
  | "urls" => some (.values "url")
  | _ => none

end Criterion

end ImageCatalog
