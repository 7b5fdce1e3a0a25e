import ImageCatalog.Record.Table

set_option autoImplicit false

namespace ImageCatalog

structure License where
  id : RecordId := 0
  name : String
  url : Option String := none
deriving DecidableEq, Inhabited

namespace License

def field? (license : License) : String → Option Value
  | "id" => some (.ofUInt64 license.id)
  | "name" => some (.string license.name)
  | "url" => some (.ofString? license.url)
  | _ => none

instance : Record License where
  kind := "license"
  fieldNames := ["id", "name", "url"]
  idOf := id
  withId n license := { license with id := n }
  field? := field?
  idOf_withId _ _ := rfl

def ofFields (fields : Fields) : Except Fault License := do
  let id ← fields.recordId "license"
  let name ← fields.requireString "license" "name"
  let url ← fields.optionalString "license" "url"
  return { id, name, url }

instance : FieldRecord License where
  ofFields := ofFields
  toFields := Record.allFields

end License

namespace Table

def licenseNamed? (t : Table License) (name : String) : Option License :=
  t.records.find? fun license => license.name == name

def licenseAt? (t : Table License) (url : String) : Option License :=
  t.records.find? fun license => license.url == some url

end Table

end ImageCatalog
