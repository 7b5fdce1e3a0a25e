import ImageCatalog.Fault
import ImageCatalog.Number.Reading
import ImageCatalog.Record.Dictionary
import ImageCatalog.Value.Order
import ImageCatalog.Value.Render

set_option autoImplicit false

namespace ImageCatalog

/-- Values by name, in the order of the names. -/
structure Fields where
  entries : List (String × Value)
  sorted : Dictionary.Sorted entries

namespace Fields

def empty : Fields := ⟨[], Dictionary.sorted_nil⟩

instance : Inhabited Fields := ⟨empty⟩

def ofList (entries : List (String × Value)) : Fields :=
  ⟨Dictionary.collect entries, Dictionary.sorted_collect entries⟩

def insert (fields : Fields) (name : String) (value : Value) : Fields :=
  ⟨Dictionary.insert name value fields.entries, Dictionary.sorted_insert name value fields.sorted⟩

def erase (fields : Fields) (name : String) : Fields :=
  ⟨Dictionary.erase name fields.entries, Dictionary.sorted_erase name fields.sorted⟩

def get? (fields : Fields) (name : String) : Option Value := Dictionary.find? name fields.entries

def contains (fields : Fields) (name : String) : Bool := (fields.get? name).isSome

def size (fields : Fields) : Nat := fields.entries.length

def isEmpty (fields : Fields) : Bool := fields.entries.isEmpty

def names (fields : Fields) : List String := fields.entries.map Prod.fst

instance : BEq Fields := ⟨fun a b => a.entries == b.entries⟩

end Fields

namespace Value

/-- A value read as an integer. A float loses its fraction and stays within 64 bits. -/
def asInt? : Value → Option Int64
  | .int n => some n
  | .float x => if x.isFinite then some x.toInt64 else none
  | .string s => Numeral.int64? s
  | _ => none

def asFloat? : Value → Option Binary64
  | .int n => some (Binary64.ofInt64 n)
  | .float x => some x
  | .string s => Numeral.binary64? s
  | _ => none

def asString? : Value → Option String
  | .string s => some s
  | .int n => some (integerText n.toInt)
  | .float x => some (plainLayout.text x)
  | .boolean b => some (booleanText b)
  | _ => none

end Value

namespace Fields

/-- The value of a name, unless it is null. -/
def optional? (fields : Fields) (name : String) : Option Value :=
  (fields.get? name).filter fun value => !value.isNull

def require (fields : Fields) (kind name : String) : Except Fault Value :=
  match fields.optional? name with
  | some value => .ok value
  | none => .error (.missingField kind name)

/-- The result of a reading, or the fault of a value that cannot be read as `expected`. -/
def readAs {α : Type} (kind name : String) (expected : DataType) (read : Value → Option α)
    (value : Value) : Except Fault α :=
  match read value with
  | some result => .ok result
  | none => .error (.malformedField kind name expected value.dataType?)

def requireAs {α : Type} (fields : Fields) (kind name : String) (expected : DataType)
    (read : Value → Option α) : Except Fault α :=
  (fields.require kind name).bind (readAs kind name expected read)

def optionalAs {α : Type} (fields : Fields) (kind name : String) (expected : DataType)
    (read : Value → Option α) : Except Fault (Option α) :=
  match fields.optional? name with
  | some value => (readAs kind name expected read value).map some
  | none => .ok none

def requireInt (fields : Fields) (kind name : String) : Except Fault Int64 :=
  fields.requireAs kind name .int Value.asInt?

def optionalInt (fields : Fields) (kind name : String) : Except Fault (Option Int64) :=
  fields.optionalAs kind name .int Value.asInt?

def requireFloat (fields : Fields) (kind name : String) : Except Fault Binary64 :=
  fields.requireAs kind name .float Value.asFloat?

def optionalFloat (fields : Fields) (kind name : String) : Except Fault (Option Binary64) :=
  fields.optionalAs kind name .float Value.asFloat?

def requireString (fields : Fields) (kind name : String) : Except Fault String :=
  fields.requireAs kind name .string Value.asString?

def optionalString (fields : Fields) (kind name : String) : Except Fault (Option String) :=
  fields.optionalAs kind name .string Value.asString?

def requireList (fields : Fields) (kind name : String) : Except Fault (List Value) :=
  fields.requireAs kind name .list Value.list?

/-- A record number or a reference to one, which must not be negative. -/
def keyOfInt (kind name : String) (n : Int64) : Except Fault RecordId :=
  if n.toInt < 0 then .error (.malformedField kind name .int (some .int))
  else .ok (UInt64.ofNat n.toInt.toNat)

def requireKey (fields : Fields) (kind name : String) : Except Fault RecordId :=
  (fields.requireInt kind name).bind (keyOfInt kind name)

def optionalKey (fields : Fields) (kind name : String) : Except Fault (Option RecordId) :=
  (fields.optionalInt kind name).bind fun
    | some n => (keyOfInt kind name n).map some
    | none => .ok none

/-- The number under `id`, where a record without one has not been given any yet. -/
def recordId (fields : Fields) (kind : String) : Except Fault RecordId :=
  (fields.optionalKey kind "id").map fun id => id.getD 0

end Fields

end ImageCatalog
