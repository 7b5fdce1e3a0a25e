import ImageCatalog.Catalog.Info
import ImageCatalog.Catalog.Sections

set_option autoImplicit false

namespace ImageCatalog

structure Document where
  info : Option Info := none
  images : List Json := []
  annotations : List Json := []
  categories : List Json := []
  licenses : Option (List Json) := none
deriving Inhabited

/-- Why an entry of a section is no record. -/
inductive EntryFault where
  | notAnObject (sectionName : String) (index : Nat)
  | entry (sectionName : String) (index : Nat) (cause : Fault)
deriving DecidableEq

namespace EntryFault

def message : EntryFault → String
  | .notAnObject sectionName index =>
    "expected a JSON object in section " ++ sectionName ++ " at entry " ++ Nat.repr index
  | .entry sectionName index cause =>
    "section " ++ sectionName ++ " entry " ++ Nat.repr index ++ ": " ++ cause.message

end EntryFault

namespace Document

open JsonText (Slot Shape Reader)

/-- The entries of a section; they stand two levels deep. -/
def entries : Reader (List Json) :=
  JsonText.sequence (JsonText.value (JsonText.depthLimit - 2))

/-- A slot for a section that has to be there. -/
def sectionSlot (name : String) (set : Document → List Json → Document) : Slot Document :=
  { name, required := true
    read := fun document cs =>
      (entries cs).map fun (found, rest) => (set document found, rest) }

def shape : Shape Document :=
  { name := "struct Document"
    slots := [
      { name := "info", required := false
        read := fun document cs =>
          (JsonText.nullable Info.reader cs).map fun (info, rest) =>
            ({ document with info }, rest) },
      sectionSlot "images" fun document found => { document with images := found },
      sectionSlot "annotations" fun document found => { document with annotations := found },
      sectionSlot "categories" fun document found => { document with categories := found },
      { name := "licenses", required := false
        read := fun document cs =>
          (JsonText.nullable entries cs).map fun (licenses, rest) =>
            ({ document with licenses }, rest) }] }

def reader : Reader Document := shape.read {}

def parse (text : String) : Except JsonText.Refusal Document :=
  JsonText.readText reader text

def toJson (document : Document) : Json :=
  .object [
    ("info", match document.info with
      | some info => info.toJson
      | none => .null),
    ("images", .array document.images), ("annotations", .array document.annotations),
    ("categories", .array document.categories),
    ("licenses", match document.licenses with
      | some licenses => .array licenses
      | none => .null)]

def pretty (document : Document) (indent : Nat) : String := document.toJson.pretty indent

section Decoding

variable {α : Type} [FieldRecord α]

def decodeEntry (sectionName : String) (index : Nat) : Json → Except EntryFault α
  | .object members =>
    match FieldRecord.ofFields (Fields.ofObject members) with
    | .ok r => .ok r
    | .error cause => .error (.entry sectionName index cause)
  | _ => .error (.notAnObject sectionName index)

def decodeFrom (sectionName : String) (index : Nat) : List Json → Except EntryFault (List α)
  | [] => .ok []
  | entry :: entries =>
    match decodeEntry sectionName index entry with
    | .error fault => .error fault
    | .ok r => (decodeFrom sectionName (index + 1) entries).map (r :: ·)

def decode (sectionName : String) (entries : List Json) (policy : IdPolicy) :
    Except EntryFault (Table α) :=
  (decodeFrom sectionName 0 entries).map fun records => { records, policy }

def encode (t : Table α) : List Json :=
  t.records.map fun r => (FieldRecord.toFields r).toObject

end Decoding

def sections (document : Document) (policy : IdPolicy) : Except EntryFault Sections := do
  let images ← decode "images" document.images policy
  let annotations ← decode "annotations" document.annotations policy
  let categories ← decode "categories" document.categories policy
  let licenses ← decode "licenses" (document.licenses.getD []) policy
  return { images, annotations, categories, licenses }

def ofSections (info : Info) (s : Sections) : Document :=
  { info := some info
    images := encode s.images
    annotations := encode s.annotations
    categories := encode s.categories
    licenses := some (encode s.licenses) }

end Document

end ImageCatalog
