import ImageCatalog.Query.Basic

/-! Predicates on records. Conjunctions and disjunctions are evaluated from the left and stop as
soon as their value is known, so a leaf beyond that point cannot fail. -/

set_option autoImplicit false

namespace ImageCatalog

open Record (idOf)

inductive Predicate where
  | const (b : Bool)
  | compare (access : Access) (op : Comparison) (operand : Value)
  | member (access : Access) (op : Membership) (set : ValueSet)
  | all (conjuncts : List Predicate)
  | any (disjuncts : List Predicate)
deriving Inhabited

namespace Access

def label (a : Access) : String :=
  match a.index with
  | some index => a.field ++ "[" ++ Nat.repr index ++ "]"
  | none => a.field

def render (a : Access) : String := "entity." ++ a.label

def resolve {α : Type} [Record α] (a : Access) (r : α) : Except Fault Value :=
  match Record.fieldValue a.field r, a.index with
  | .error fault, _ => .error fault
  | .ok value, none => .ok value
  | .ok (.list items), some index =>
    match items[index]? with
    | some item => .ok item
    | none => .error (.indexOutOfBounds a.field index items.length)
  | .ok value, some _ => .error (.notIndexable a.field value.dataType?)

end Access

namespace Comparison

/-- The value of a comparison. Values without an order are refused if the operator needs one; a
NaN has the type of a number, but stands in no order to any. -/
def apply (op : Comparison) (label : String) (value operand : Value) : Except Fault Bool :=
  match op with
  | .eq => .ok (value == operand)
  | .ne => .ok (value != operand)
  | _ =>
    if value.comparable operand then .ok ((value.order? operand).any op.holds)
    else .error (.typeMismatch label operand.dataType? value.dataType?)

end Comparison

namespace Predicate

/-- Conjunction, without a node of its own for fewer than two conjuncts. -/
def allOf : List Predicate → Predicate
  | [] => .const true
  | [p] => p
  | ps => .all ps

/-- Disjunction, without a node of its own for fewer than two disjuncts. -/
def anyOf : List Predicate → Predicate
  | [] => .const false
  | [p] => p
  | ps => .any ps

def isTrue : Predicate → Bool
  | .const b => b
  | _ => false

/-- A piece of the text of a predicate; the text of a leaf is one piece. -/
inductive Piece where
  | leaf (text : String)
  | const (b : Bool)
  | and | or | opening | closing
deriving DecidableEq, Inhabited

def Piece.text : Piece → String
  | .leaf text => text
  | .const b => Value.booleanText b
  | .and => " and "
  | .or => " or "
  | .opening => "("
  | .closing => ")"

def compareText (access : Access) (op : Comparison) (operand : Value) : String :=
  access.render ++ " " ++ op.token ++ " " ++ operand.render

def memberText (access : Access) (op : Membership) (set : ValueSet) : String :=
  access.render ++ " " ++ op.words ++ " " ++ (Value.list set.listed).render

/-- Whether the predicate stands in parentheses under a conjunction. -/
def isDisjunction : Predicate → Bool
  | .any _ => true
  | _ => false

mutual

def pieces : Predicate → List Piece
  | .const b => [.const b]
  | .compare access op operand => [.leaf (compareText access op operand)]
  | .member access op set => [.leaf (memberText access op set)]
  | .all ps => conjunctPieces ps
  | .any ps => disjunctPieces ps

def conjunctPieces : List Predicate → List Piece
  | [] => []
  | p :: ps =>
    (if p.isDisjunction then .opening :: p.pieces ++ [.closing] else p.pieces)
      ++ (if ps.isEmpty then [] else .and :: conjunctPieces ps)

def disjunctPieces : List Predicate → List Piece
  | [] => []
  | p :: ps => p.pieces ++ (if ps.isEmpty then [] else .or :: disjunctPieces ps)

end

def render (p : Predicate) : String := String.join (p.pieces.map Piece.text)

section Evaluation

variable {α : Type} [Record α]

/-- The outcome of a leaf, where a fault tells the record and the leaf. -/
def atLeaf (r : α) (text : String) : Except Fault Bool → Except Fault Bool
  | .ok b => .ok b
  | .error cause => .error (.evaluation (idOf r) text cause)

mutual

def eval (r : α) : Predicate → Except Fault Bool
  | .const b => .ok b
  | .compare access op operand =>
    atLeaf r (compareText access op operand)
      ((access.resolve r).bind fun value => op.apply access.label value operand)
  | .member access op set =>
    atLeaf r (memberText access op set)
      ((access.resolve r).map fun value => op.holds (set.contains value))
  | .all ps => evalAll r ps
  | .any ps => evalAny r ps

def evalAll (r : α) : List Predicate → Except Fault Bool
  | [] => .ok true
  | p :: ps =>
    match eval r p with
    | .ok true => evalAll r ps
    | outcome => outcome

def evalAny (r : α) : List Predicate → Except Fault Bool
  | [] => .ok false
  | p :: ps =>
    match eval r p with
    | .ok false => evalAny r ps
    | outcome => outcome

end

end Evaluation

mutual

def leafCount : Predicate → Nat
  | .const _ => 0
  | .compare .. => 1
  | .member .. => 1
  | .all ps => leafCounts ps
  | .any ps => leafCounts ps

def leafCounts : List Predicate → Nat
  | [] => 0
  | p :: ps => p.leafCount + leafCounts ps

end

mutual

/-- Equality, where operands are equal as values and sets as sets. -/
def equal : Predicate → Predicate → Bool
  | .const b, .const c => b == c
  | .compare a op v, .compare b op' w => a == b && op == op' && v == w
  | .member a op s, .member b op' t => a == b && op == op' && s == t
  | .all ps, .all qs => equalLists ps qs
  | .any ps, .any qs => equalLists ps qs
  | _, _ => false

def equalLists : List Predicate → List Predicate → Bool
  | [], [] => true
  | p :: ps, q :: qs => p.equal q && equalLists ps qs
  | _, _ => false

end

instance : BEq Predicate := ⟨equal⟩

end Predicate

end ImageCatalog
