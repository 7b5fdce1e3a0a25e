import ImageCatalog.Value.Basic
import ImageCatalog.Text.Quoted

set_option autoImplicit false

namespace ImageCatalog

/-- The number by which a record is known; zero stands for a number not yet given. -/
abbrev RecordId := UInt64

inductive Fault where
  | invalidOperator (field operator accepted : String)
  | invalidLogicalOperator (operator accepted : String)
  | malformedQuery (message : String)
  | fieldNotFound (kind field : String)
  | notIndexable (field : String) (got : Option DataType)
  | indexOutOfBounds (field : String) (index length : Nat)
  | typeMismatch (field : String) (expected got : Option DataType)
  /-- A leaf of a query failed on a record. -/
  | evaluation (record : RecordId) (leaf : String) (cause : Fault)
  | missingField (kind field : String)
  | malformedField (kind field : String) (expected : DataType) (got : Option DataType)
  | duplicateId (kind : String) (id : RecordId)
  | idOutOfRange (kind : String) (id : RecordId)
deriving DecidableEq, Inhabited

/-- The greatest number of a record, so that every stored number is also a signed integer. -/
def maxRecordId : RecordId := 9223372036854775807

namespace Fault

def name : Fault → String
  | .invalidOperator .. => "InvalidOperator"
  | .invalidLogicalOperator .. => "InvalidLogicalOperator"
  | .malformedQuery .. => "MalformedQuery"
  | .fieldNotFound .. => "FieldNotFound"
  | .notIndexable .. => "NotIndexable"
  | .indexOutOfBounds .. => "IndexOutOfBounds"
  | .typeMismatch .. => "TypeMismatch"
  | .evaluation .. => "Evaluation"
  | .missingField .. => "MissingField"
  | .malformedField .. => "MalformedField"
  | .duplicateId .. => "DuplicateId"
  | .idOutOfRange .. => "IdOutOfRange"

def message : Fault → String
  | .invalidOperator field operator accepted =>
    "Invalid operator " ++ Text.quoted operator ++ " for field " ++ field
      ++ ". Supported operators: " ++ accepted
  | .invalidLogicalOperator operator accepted =>
    "Invalid logical operator: " ++ Text.quoted operator
      ++ ". Supported logical operators: " ++ accepted
  | .malformedQuery message => "Malformed query: " ++ message
  | .fieldNotFound kind field => "Field " ++ field ++ " not found on " ++ kind
  | .notIndexable field got =>
    "Field " ++ field ++ " of type " ++ DataType.nameOrNull got ++ " is not indexable"
  | .indexOutOfBounds field index length =>
    "Index " ++ Nat.repr index ++ " out of bounds for field " ++ field
      ++ " of length " ++ Nat.repr length
  | .typeMismatch field expected got =>
    "Type mismatch on field " ++ field ++ ": cannot order " ++ DataType.nameOrNull got
      ++ " against " ++ DataType.nameOrNull expected
  | .evaluation record leaf cause =>
    "Evaluation of \x60" ++ leaf ++ "\x60 failed for record " ++ Nat.repr record.toNat
      ++ ": " ++ cause.message
  | .missingField kind field => "Missing field " ++ field ++ " for " ++ kind
  | .malformedField kind field expected got =>
    "Malformed field " ++ field ++ " for " ++ kind ++ ": expected " ++ expected.name
      ++ ", got " ++ DataType.nameOrNull got
  | .duplicateId kind id => "Duplicate id " ++ Nat.repr id.toNat ++ " in " ++ kind ++ " collection"
  | .idOutOfRange kind id =>
    "Id " ++ Nat.repr id.toNat ++ " out of range in " ++ kind ++ " collection (max "
      ++ Nat.repr maxRecordId.toNat ++ ")"

/-- Whether the query itself is at fault, whatever the records hold. -/
def isConfiguration : Fault → Bool
  | .invalidOperator .. | .invalidLogicalOperator .. | .malformedQuery .. => true
  | _ => false

/-- The faults behind a fault, the nearest first. -/
def causes : Fault → List Fault
  | .evaluation _ _ cause => cause :: cause.causes
  | _ => []

end Fault

end ImageCatalog
