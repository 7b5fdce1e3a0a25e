import ImageCatalog.Query.Predicate

set_option autoImplicit false

namespace ImageCatalog

/-- A connective that does not stand between two terms. -/
inductive Misplaced where
  | leading (op : Connective)
  | doubled (op : Connective) (position : Nat)
  | trailing (op : Connective)
deriving DecidableEq

namespace Misplaced

def message : Misplaced → String
  | .leading op => "query starts with logical operator " ++ op.token
  | .doubled op position =>
    "logical operator " ++ op.token ++ " at position " ++ Nat.repr position
      ++ " follows another operator"
  | .trailing op => "query ends with logical operator " ++ op.token

end Misplaced

namespace Query

/-- The first connective with another one right before it, from `position` on. -/
def doubled? (position : Nat) (afterConnective : Bool) : List Item → Option Misplaced
  | [] => none
  | .term _ :: items => doubled? (position + 1) false items
  | .connective op :: items =>
    if afterConnective then some (.doubled op position) else doubled? (position + 1) true items

def leading? : List Item → Option Misplaced
  | .connective op :: _ => some (.leading op)
  | _ => none

def trailing? (items : List Item) : Option Misplaced :=
  match items.getLast? with
  | some (.connective op) => some (.trailing op)
  | _ => none

def misplaced? (items : List Item) : Option Misplaced :=
  (leading? items).or ((doubled? 0 false items).or (trailing? items))

/-- The groups of terms, where `group` holds those of the first one read so far. -/
def groupsFrom (group : List Term) : List Item → List (List Term)
  | [] => if group.isEmpty then [] else [group]
  | .term term :: items => groupsFrom (group ++ [term]) items
  | .connective .and :: items => groupsFrom group items
  | .connective .or :: items => group :: groupsFrom [] items

def groups (items : List Item) : List (List Term) := groupsFrom [] items

end Query

namespace MemberTerm

def predicate (term : MemberTerm) : Predicate :=
  .member (.ofField term.field) term.op (.ofList term.values)

end MemberTerm

namespace Intersection

def predicate (i : Intersection) : Predicate := .allOf (i.terms.map MemberTerm.predicate)

end Intersection

namespace Term

def predicate : Term → Predicate
  | .compare access op operand => .compare access op operand
  | .member term => term.predicate
  | .range access lowOp low highOp high =>
    .all [.compare access lowOp low, .compare access highOp high]
  | .intersection terms => terms.predicate

end Term

namespace Query

/-- The predicate of the items; a query without items holds of everything. -/
def body (items : List Item) : Predicate :=
  let groups := groups items
  if groups.isEmpty then .const true
  else .anyOf (groups.map fun group => .allOf (group.map Term.predicate))

/-- The predicate of a query: its body, then its constraints. -/
def compile (q : Query) : Except Fault Predicate :=
  match misplaced? q.items with
  | some misplaced => .error (.malformedQuery misplaced.message)
  | none =>
    .ok (.allOf ((body q.items :: q.constraints.map Intersection.predicate).filter
      fun p => !p.isTrue))

end Query

end ImageCatalog
