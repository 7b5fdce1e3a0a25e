import ImageCatalog.Number.Integers

set_option autoImplicit false

namespace ImageCatalog

/-- The type of a value other than null. -/
inductive DataType where
  | boolean | int | float | string | list | json
deriving DecidableEq, Inhabited

namespace DataType

def name : DataType → String
  | .boolean => "boolean"
  | .int => "int"
  | .float => "float"
  | .string => "string"
  | .list => "list"
  | .json => "json"

def isNumeric : DataType → Bool
  | .int | .float => true
  | _ => false

/-- Whether two values of this type can stand in an order. -/
def isOrdered : DataType → Bool
  | .json => false
  | _ => true

/-- The name of a type in a message, where null has a name too. -/
def nameOrNull : Option DataType → String
  | some type => type.name
  | none => "null"

end DataType

/-- A value. The payload of `json` is the text of a JSON object, which is not looked into. -/
inductive Value where
  | null
  | boolean (b : Bool)
  | int (n : Int64)
  | float (x : Binary64)
  | string (s : String)
  | list (items : List Value)
  | json (payload : String)
deriving Inhabited

namespace Value

def dataType? : Value → Option DataType
  | .null => none
  | .boolean _ => some .boolean
  | .int _ => some .int
  | .float _ => some .float
  | .string _ => some .string
  | .list _ => some .list
  | .json _ => some .json

def isNull : Value → Bool
  | .null => true
  | _ => false

def boolean? : Value → Option Bool
  | .boolean b => some b
  | _ => none

def int? : Value → Option Int64
  | .int n => some n
  | _ => none

def float? : Value → Option Binary64
  | .float x => some x
  | _ => none

def string? : Value → Option String
  | .string s => some s
  | _ => none

def list? : Value → Option (List Value)
  | .list items => some items
  | _ => none

def json? : Value → Option String
  | .json payload => some payload
  | _ => none

/-- An unsigned number; past the signed range it is the nearest floating-point number. -/
def ofUInt64 (n : UInt64) : Value :=
  if n ≤ Int64.maxValue.toUInt64 then .int (Int64.ofNat n.toNat) else .float (Binary64.ofUnsigned n)

/-- An absent value is null. -/
def ofOption : Option Value → Value
  | some v => v
  | none => .null

def ofString? (s : Option String) : Value := ofOption (s.map .string)

def ofInt64? (n : Option Int64) : Value := ofOption (n.map .int)

def ofUInt64? (n : Option UInt64) : Value := ofOption (n.map ofUInt64)

def ofFloat? (x : Option Binary64) : Value := ofOption (x.map .float)

/-- Either kind of number as a floating-point number. -/
def number? : Value → Option Binary64
  | .int n => some (Binary64.ofInt64 n)
  | .float x => some x
  | _ => none

end Value

end ImageCatalog
