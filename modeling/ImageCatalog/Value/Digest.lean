import ImageCatalog.Value.Order

/-! Sets of values, looked up by digest. A stored value answers for another one iff both give the
same digest and are equal. -/

set_option autoImplicit false

namespace ImageCatalog

/-- One word of the digest of a value. -/
inductive DigestWord where
  | null
  | boolean (b : Bool)
  | int (n : Int64)
  | float (bits : UInt64)
  | string (s : String)
  | list (length : Nat)
  | json (payload : String)
deriving DecidableEq

namespace Value

mutual

/-- What a look-up sees of a value. A floating-point number that denotes an integer gives the
digest of that integer, any other one gives its bits. -/
def digest : Value → List DigestWord
  | .null => [.null]
  | .boolean b => [.boolean b]
  | .int n => [.int n]
  | .float x =>
    match x.integer? with
    | some n => [.int n]
    | none => [.float x.bits]
  | .string s => [.string s]
  | .list items => .list items.length :: digestItems items
  | .json payload => [.json payload]

def digestItems : List Value → List DigestWord
  | [] => []
  | item :: items => item.digest ++ digestItems items

end

/-- Whether a look-up of `v` finds the stored value `w`. -/
def answersFor (w v : Value) : Bool := w.digest == v.digest && w == v

/-- Whether a look-up of `v` finds one of the stored values. -/
def foundIn (v : Value) (stored : List Value) : Bool := stored.any (·.answersFor v)

/-- Stores the values that are not found yet, in order. -/
def distinctFrom (stored : List Value) : List Value → List Value
  | [] => stored
  | v :: vs => if v.foundIn stored then distinctFrom stored vs else distinctFrom (stored ++ [v]) vs

/-- The first value of every class of values that find one another. -/
def distinct (vs : List Value) : List Value := distinctFrom [] vs

end Value

/-- A set of values that keeps its values as they were listed. -/
structure ValueSet where
  listed : List Value
  stored : List Value := Value.distinct listed
  stored_eq : stored = Value.distinct listed := by rfl

namespace ValueSet

def ofList (listed : List Value) : ValueSet := { listed }

def contains (s : ValueSet) (v : Value) : Bool := v.foundIn s.stored

def size (s : ValueSet) : Nat := s.stored.length

def isEmpty (s : ValueSet) : Bool := s.stored.isEmpty

/-- Two sets are equal if they have as many values and one contains those of the other. -/
instance : BEq ValueSet := ⟨fun s t => s.size == t.size && s.stored.all t.contains⟩

end ValueSet

end ImageCatalog
