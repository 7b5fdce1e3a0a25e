import ImageCatalog.Json.Shape
import ImageCatalog.Record.Table

set_option autoImplicit false

namespace ImageCatalog

structure DatasetConfig where
  imagesDirectory : Option String := none
  idPolicy : IdPolicy := .permissive
  /-- Spaces for each level of a saved document. -/
  indent : Nat := 4
deriving DecidableEq, Inhabited

namespace DatasetConfig

open JsonText (Shape Reader)

def shape : Shape DatasetConfig :=
  { name := "struct DatasetConfig"
    slots := [
      { name := "images_dir", required := false
        read := fun config cs =>
          (JsonText.nullable (JsonText.stringValue "path string") cs).map fun (dir, rest) =>
            ({ config with imagesDirectory := dir }, rest) },
      { name := "id_policy", required := false
        read := fun config cs =>
          (JsonText.variant "\x60permissive\x60 or \x60strict\x60" IdPolicy.ofName? cs).map
            fun (idPolicy, rest) => ({ config with idPolicy }, rest) },
      { name := "indent", required := false
        read := fun config cs =>
          (JsonText.count cs).map fun (indent, rest) => ({ config with indent }, rest) }] }

def reader : Reader DatasetConfig := shape.read {}

def parse (text : String) : Except JsonText.Refusal DatasetConfig :=
  JsonText.readText reader text

def toJson (config : DatasetConfig) : Json :=
  .object [
    ("images_dir", match config.imagesDirectory with
      | some directory => .string directory
      | none => .null),
    ("id_policy", .string config.idPolicy.name),
    ("indent", .number (.integer config.indent))]

end DatasetConfig

end ImageCatalog
