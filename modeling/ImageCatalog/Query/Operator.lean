import ImageCatalog.Fault

set_option autoImplicit false

namespace ImageCatalog

inductive Comparison where
  | eq | ne | gt | lt | ge | le
deriving DecidableEq, Inhabited

namespace Comparison

def all : List Comparison := [.eq, .ne, .gt, .lt, .ge, .le]

def token : Comparison → String
  | .eq => "=="
  | .ne => "!="
  | .gt => ">"
  | .lt => "<"
  | .ge => ">="
  | .le => "<="

def ofToken? (token : String) : Option Comparison := all.find? fun op => op.token == token

def isLowerBound : Comparison → Bool
  | .gt | .ge => true
  | _ => false

def isUpperBound : Comparison → Bool
  | .lt | .le => true
  | _ => false

/-- Whether the operator needs an order, and not only equality. -/
def isOrdering : Comparison → Bool
  | .eq | .ne => false
  | _ => true

def holds : Comparison → Ordering → Bool
  | .eq, o => o == .eq
  | .ne, o => o != .eq
  | .gt, o => o == .gt
  | .lt, o => o == .lt
  | .ge, o => o != .lt
  | .le, o => o != .gt

end Comparison

inductive Membership where
  | isIn | notIn
deriving DecidableEq

namespace Membership

instance : Inhabited Membership := ⟨.isIn⟩

def token : Membership → String
  | .isIn => "in"
  | .notIn => "not_in"

def ofToken? : String → Option Membership
  | "in" => some .isIn
  | "not_in" => some .notIn
  | _ => none

def words : Membership → String
  | .isIn => "in"
  | .notIn => "not in"

def holds : Membership → Bool → Bool
  | .isIn, contained => contained
  | .notIn, contained => !contained

end Membership

/-- A token between two terms of a query. -/
inductive Connective where
  | and | or
deriving DecidableEq

namespace Connective

instance : Inhabited Connective := ⟨.and⟩

def token : Connective → String
  | .and => "and"
  | .or => "or"

def ofToken? : String → Option Connective
  | "and" => some .and
  | "or" => some .or
  | _ => none

end Connective

def comparisonTokens : String := "==, !=, >, <, >=, <="

def lowerBoundTokens : String := ">, >="

def upperBoundTokens : String := "<, <="

def membershipTokens : String := "in, not_in"

def connectiveTokens : String := "and, or"

/-- What stands for the field in a fault about an operator outside every term. -/
def unboundField : String := "<unbound>"

/-- An operator that was found, or the fault that names the accepted ones. -/
def accept {α : Type} (field token accepted : String) : Option α → Except Fault α
  | some op => .ok op
  | none => .error (.invalidOperator field token accepted)

def checkComparison (field token : String) : Except Fault Comparison :=
  accept field token comparisonTokens (Comparison.ofToken? token)

def checkMembership (field token : String) : Except Fault Membership :=
  accept field token membershipTokens (Membership.ofToken? token)

def checkConnective (token : String) : Except Fault Connective :=
  match Connective.ofToken? token with
  | some op => .ok op
  | none => .error (.invalidLogicalOperator token connectiveTokens)

/-- The two bounds of a range: the lower one is checked first. -/
def checkBounds (field : String) (low high : Comparison) :
    Except Fault (Comparison × Comparison) := do
  let low ← accept field low.token lowerBoundTokens ((some low).filter (·.isLowerBound))
  let high ← accept field high.token upperBoundTokens ((some high).filter (·.isUpperBound))
  return (low, high)

def checkBoundTokens (field low high : String) : Except Fault (Comparison × Comparison) := do
  let low ← accept field low lowerBoundTokens
    ((Comparison.ofToken? low).filter (·.isLowerBound))
  let high ← accept field high upperBoundTokens
    ((Comparison.ofToken? high).filter (·.isUpperBound))
  return (low, high)

end ImageCatalog
