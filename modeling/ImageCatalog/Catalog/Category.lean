import ImageCatalog.Record.Table

set_option autoImplicit false

namespace ImageCatalog

structure Category where
  id : RecordId := 0
  name : String
  supercategory : Option String := none
deriving DecidableEq, Inhabited

namespace Category

def field? (category : Category) : String → Option Value
  | "id" => some (.ofUInt64 category.id)
  | "name" => some (.string category.name)
  | "supercategory" => some (.ofString? category.supercategory)
  | _ => none

instance : Record Category where
  kind := "category"
  fieldNames := ["id", "name", "supercategory"]
  idOf := id
  withId n category := { category with id := n }
  field? := field?
  idOf_withId _ _ := rfl

def ofFields (fields : Fields) : Except Fault Category := do
  let id ← fields.recordId "category"
  let name ← fields.requireString "category" "name"
  let supercategory ← fields.optionalString "category" "supercategory"
  return { id, name, supercategory }

instance : FieldRecord Category where
  ofFields := ofFields
  toFields := Record.allFields

end Category

namespace Table

def categoryNamed? (t : Table Category) (name : String) : Option Category :=
  t.records.find? fun category => category.name == name

end Table

end ImageCatalog
