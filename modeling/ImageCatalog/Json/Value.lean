import ImageCatalog.Json.Reader
import ImageCatalog.Record.Fields

set_option autoImplicit false

namespace ImageCatalog

namespace JsonNumber

/-- An integer past the signed 64 bits is read as the nearest floating-point number. -/
def toValue : JsonNumber → Value
  | .integer n =>
    if Binary64.fitsInt64 n then .int (Int64.ofInt n) else .float (Binary64.ofInt n)
  | .float x => .float x

end JsonNumber

namespace Value

mutual

def ofJson : Json → Value
  | .null => .null
  | .bool b => .boolean b
  | .number n => n.toValue
  | .string s => .string s
  | .array items => .list (ofJsonItems items)
  | .object members => .json (Json.object members).compact

def ofJsonItems : List Json → List Value
  | [] => []
  | item :: items => ofJson item :: ofJsonItems items

end

mutual

/-- A number that is not finite and a payload that is not JSON have no counterpart but null. -/
def toJson : Value → Json
  | .null => .null
  | .boolean b => .bool b
  | .int n => .number (.integer n.toInt)
  | .float x => if x.isFinite then .number (.float x) else .null
  | .string s => .string s
  | .list items => .array (toJsonItems items)
  | .json payload =>
    match Json.parse payload with
    | .ok found => found
    | .error _ => .null

def toJsonItems : List Value → List Json
  | [] => []
  | item :: items => item.toJson :: toJsonItems items

end

end Value

namespace Fields

def ofObject (members : List (String × Json)) : Fields :=
  ofList (members.map fun (name, member) => (name, Value.ofJson member))

def toObject (fields : Fields) : Json :=
  .object (fields.entries.map fun (name, value) => (name, value.toJson))

end Fields

end ImageCatalog
