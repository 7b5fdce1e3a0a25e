import ImageCatalog.Record.Fields

set_option autoImplicit false

namespace ImageCatalog

class Record (α : Type) where
  /-- The name of the kind in messages. -/
  kind : String
  /-- The names of the fields that records of this kind have. -/
  fieldNames : List String
  idOf : α → RecordId
  withId : RecordId → α → α
  /-- The value of a field; none if the record has no such field. -/
  field? : α → String → Option Value
  idOf_withId : ∀ (n : RecordId) (r : α), idOf (withId n r) = n

namespace Record

def hasField (α : Type) [Record α] (name : String) : Bool := (fieldNames α).contains name

def fieldValue {α : Type} [Record α] (field : String) (r : α) : Except Fault Value :=
  match field? r field with
  | some value => .ok value
  | none => .error (.fieldNotFound (kind α) field)

/-- The fields of the kind with the values that the record has. -/
def allFields {α : Type} [Record α] (r : α) : Fields :=
  .ofList ((fieldNames α).filterMap fun name => (field? r name).map fun value => (name, value))

end Record

/-- A kind of record that can be read from fields and written to them. -/
class FieldRecord (α : Type) extends Record α where
  ofFields : Fields → Except Fault α
  toFields : α → Fields

end ImageCatalog
