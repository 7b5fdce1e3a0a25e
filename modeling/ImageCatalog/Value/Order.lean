import ImageCatalog.Value.Basic

set_option autoImplicit false

namespace ImageCatalog

namespace Value

mutual

def equal : Value → Value → Bool
  | .null, .null => true
  | .boolean a, .boolean b => a == b
  | .int a, .int b => a == b
  | .int a, .float b => b.integer? == some a
  | .float a, .int b => a.integer? == some b
  | .float a, .float b => (a.isNaN && b.isNaN) || a.numEq b
  | .string a, .string b => a == b
  | .list as, .list bs => equalLists as bs
  | .json a, .json b => a == b
  | _, _ => false

def equalLists : List Value → List Value → Bool
  | [], [] => true
  | a :: as, b :: bs => a.equal b && equalLists as bs
  | _, _ => false

end

instance : BEq Value := ⟨equal⟩

/-- Whether the types of two values allow an order between them. -/
def comparable (a b : Value) : Bool :=
  match a.dataType?, b.dataType? with
  | some s, some t => (s.isNumeric && t.isNumeric) || (s == t && s.isOrdered)
  | _, _ => false

mutual

/-- The order of two values, where they have one. -/
def order? : Value → Value → Option Ordering
  | .int a, .int b => some (compare a.toInt b.toInt)
  | .int a, .float b => Binary64.orderOfInt? a b
  | .float a, .int b => (Binary64.orderOfInt? b a).map Ordering.swap
  | .float a, .float b => a.order? b
  | .string a, .string b => some (compareOfLessAndEq a b)
  | .boolean a, .boolean b => some (compare a.toNat b.toNat)
  | .list as, .list bs => orderLists? as bs
  | _, _ => none

/-- The order of two lists: that of the first items that differ, else that of the lengths. -/
def orderLists? : List Value → List Value → Option Ordering
  | [], [] => some .eq
  | [], _ :: _ => some .lt
  | _ :: _, [] => some .gt
  | a :: as, b :: bs =>
    match a.order? b with
    | some .eq => orderLists? as bs
    | other => other

end

end Value

end ImageCatalog
