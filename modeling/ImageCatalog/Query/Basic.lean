import ImageCatalog.Query.Operator
import ImageCatalog.Record.Table

set_option autoImplicit false

namespace ImageCatalog

/-- A field of a record, or one item of a field that holds a list. -/
structure Access where
  field : String
  index : Option Nat := none
deriving DecidableEq, Inhabited

namespace Access

def ofField (field : String) : Access := { field }

def item (field : String) (index : Nat) : Access := { field, index := some index }

end Access

structure MemberTerm where
  field : String
  values : List Value
  op : Membership := .isIn
deriving BEq, Inhabited

structure Intersection where
  terms : List MemberTerm := []
deriving BEq, Inhabited

namespace Intersection

def add (i : Intersection) (term : MemberTerm) : Intersection := ⟨i.terms ++ [term]⟩

/-- Adds that `field` has a value which `key` has in some record of `peer`. -/
def memberOf {β : Type} [Record β] (i : Intersection) (field : String) (peer : Table β)
    (key : String) : Except Fault Intersection :=
  (peer.uniqueValues key).map fun values => i.add { field, values }

end Intersection

inductive Term where
  | compare (access : Access) (op : Comparison) (operand : Value)
  | member (term : MemberTerm)
  | range (access : Access) (lowOp : Comparison) (low : Value) (highOp : Comparison) (high : Value)
  | intersection (terms : Intersection)
deriving BEq, Inhabited

namespace Term

def between (access : Access) (low high : Value) : Term := .range access .ge low .le high

/-- The values between two bounds with these operators. -/
def range? (access : Access) (low high : Value) (lowOp highOp : Comparison) : Except Fault Term :=
  (checkBounds access.field lowOp highOp).map fun (lowOp, highOp) =>
    .range access lowOp low highOp high

end Term

inductive Item where
  | term (term : Term)
  | connective (op : Connective)
deriving BEq, Inhabited

structure Query where
  items : List Item := []
  constraints : List Intersection := []
deriving BEq, Inhabited

namespace Query

def empty : Query := {}

def isEmpty (q : Query) : Bool := q.items.isEmpty && q.constraints.isEmpty

def terms (q : Query) : List Term :=
  q.items.filterMap fun
    | .term term => some term
    | .connective _ => none

def ofTerm (term : Term) : Query := { items := [.term term] }

def ofItems (items : List Item) : Query := { items }

def add (q : Query) (term : Term) : Query := { q with items := q.items ++ [.term term] }

def join (q : Query) (op : Connective) : Query := { q with items := q.items ++ [.connective op] }

def joinToken (q : Query) (token : String) : Except Fault Query :=
  (checkConnective token).map q.join

/-- Constrains the whole query, and so every group of it. -/
def constrain (q : Query) (i : Intersection) : Query :=
  { q with constraints := q.constraints ++ [i] }

def compare (q : Query) (access : Access) (value : Value) (op : Comparison := .eq) : Query :=
  q.add (.compare access op value)

def member (q : Query) (field : String) (values : List Value) (op : Membership := .isIn) : Query :=
  q.add (.member { field, values, op })

def between (q : Query) (access : Access) (low high : Value) : Query :=
  q.add (.between access low high)

def range (q : Query) (access : Access) (low high : Value) (lowOp highOp : Comparison) :
    Except Fault Query :=
  (Term.range? access low high lowOp highOp).map q.add

def compareToken (q : Query) (field : String) (value : Value) (token : String) :
    Except Fault Query :=
  (checkComparison field token).map fun op => q.compare (.ofField field) value op

def memberToken (q : Query) (field : String) (values : List Value) (token : String) :
    Except Fault Query :=
  (checkMembership field token).map fun op => q.member field values op

def rangeTokens (q : Query) (field : String) (low high : Value) (lowToken highToken : String) :
    Except Fault Query :=
  (checkBoundTokens field lowToken highToken).map fun (lowOp, highOp) =>
    q.add (.range (.ofField field) lowOp low highOp high)

def ids (q : Query) (values : List Value) (op : Membership := .isIn) : Query :=
  q.member "id" values op

def compareId (q : Query) (value : Value) (op : Comparison) : Query :=
  q.compare (.ofField "id") value op

end Query

end ImageCatalog
