import ImageCatalog.Json.Reader

/-! Reading JSON text straight into a structure, in one pass. The first thing in the text that does
not fit is what is reported, even where the text stops being JSON further on. -/

set_option autoImplicit false

namespace ImageCatalog

namespace JsonText

open Text (Decoded)

/-- The refusal of a value of the wrong type, which is read only as far as it is described. -/
def typeMismatch {α : Type} (expected : String) : Reader α := fun cs =>
  let refuse (found : Found) : Except Refusal (α × Decoded) :=
    .error (.mismatch (.invalidType found expected))
  match skipBlank cs with
  | some 'n' :: cs => (word () ['u', 'l', 'l'] cs).bind fun _ => refuse .null
  | some 't' :: cs => (word () ['r', 'u', 'e'] cs).bind fun _ => refuse (.bool true)
  | some 'f' :: cs => (word () ['a', 'l', 's', 'e'] cs).bind fun _ => refuse (.bool false)
  | some '"' :: cs => (string cs).bind fun (s, _) => refuse (.string s)
  | some '[' :: _ => refuse .sequence
  | some '\x7b' :: _ => refuse .map
  | cs => (number cs).bind fun (n, _) => refuse (.number n)

def startsNumber : Decoded → Bool
  | some c :: _ => c == '-' || c.isDigit
  | _ => false

def integerIn (expected : String) (low high : Int) : Reader Int := fun cs =>
  let cs := skipBlank cs
  if startsNumber cs then
    match number cs with
    | .error refusal => .error refusal
    | .ok (.integer n, rest) =>
      if low ≤ n ∧ n ≤ high then .ok (n, rest)
      else .error (.mismatch (.invalidValue (.number (.integer n)) expected))
    | .ok (n, _) => .error (.mismatch (.invalidType (.number n) expected))
  else typeMismatch expected cs

def signed64 : Reader Int64 := fun cs =>
  (integerIn "i64" Int64.minValue.toInt Int64.maxValue.toInt cs).map fun (n, rest) =>
    (Int64.ofInt n, rest)

/-- A count, which has no sign and fits 64 bits. -/
def count : Reader Nat := fun cs =>
  (integerIn "usize" 0 (UInt64.size - 1) cs).map fun (n, rest) => (n.toNat, rest)

def stringValue (expected : String) : Reader String := fun cs =>
  match skipBlank cs with
  | some '"' :: cs => string cs
  | cs => typeMismatch expected cs

def nullable {α : Type} (reader : Reader α) : Reader (Option α) := fun cs =>
  match skipBlank cs with
  | some 'n' :: cs => word none ['u', 'l', 'l'] cs
  | cs => (reader cs).map fun (found, rest) => (some found, rest)

def sequence {α : Type} (item : Reader α) : Reader (List α) := fun cs =>
  match skipBlank cs with
  | some '[' :: cs => items item cs
  | cs => typeMismatch "a sequence" cs

def unit : Reader Unit := fun cs =>
  match skipBlank cs with
  | some 'n' :: cs => word () ['u', 'l', 'l'] cs
  | cs => typeMismatch "unit" cs

/-- A name among some variants, alone or as the one member of an object whose value is null. -/
def variant {α : Type} (expected : String) (find : String → Option α) : Reader α :=
  let known (name : String) (rest : Decoded) : Except Refusal (α × Decoded) :=
    match find name with
    | some found => .ok (found, rest)
    | none => .error (.mismatch (.unknownVariant name expected))
  fun cs =>
    match skipBlank cs with
    | some '"' :: cs => (string cs).bind fun (name, rest) => known name rest
    | some '\x7b' :: cs => do
      let (name, rest) ← memberName string cs
      let (found, rest) ← known name rest
      let (_, rest) ← afterColon unit rest
      match skipBlank rest with
      | some '\x7d' :: rest => return (found, rest)
      | _ => throw .grammar
    | _ => .error .grammar

/-- A string that is not used: its escapes need not denote characters, and its bytes need not
belong to any. -/
def passString : Reader Unit
  | some '"' :: cs => .ok ((), cs)
  | some '\\' :: some 'u' :: some a :: some b :: some c :: some d :: cs =>
    if (codeUnit? a b c d).isSome then passString cs else .error .grammar
  | some '\\' :: some c :: cs =>
    if (escaped? c).isSome then passString cs else .error .grammar
  | some c :: cs => if c.toNat < 0x20 || c == '\\' then .error .grammar else passString cs
  | none :: cs => passString cs
  | [] => .error .grammar

/-- A number that is not used: it may lie past every range. -/
def passNumber : Reader Unit := fun cs =>
  (numberParts (splitMinus cs).2).map fun (_, rest) => ((), rest)

def passWith (array object : Reader Unit) : Reader Unit := fun cs =>
  match skipBlank cs with
  | some 'n' :: cs => word () ['u', 'l', 'l'] cs
  | some 't' :: cs => word () ['r', 'u', 'e'] cs
  | some 'f' :: cs => word () ['a', 'l', 's', 'e'] cs
  | some '"' :: cs => passString cs
  | some '[' :: cs => array cs
  | some '\x7b' :: cs => object cs
  | cs => passNumber cs

/-- A value that is not used, nested at most `depth` deep. -/
def passTo : Nat → Reader Unit
  | 0 => passWith (fun _ => .error .grammar) (fun _ => .error .grammar)
  | depth + 1 =>
    passWith (fun cs => (items (passTo depth) cs).map fun (_, rest) => ((), rest))
      (members (fun cs => (passString cs).map fun (_, rest) => ("", rest))
        (fun _ _ => afterColon (passTo depth)) ())

/-- A value that is not used, nested as deep as its text allows. -/
def pass : Reader Unit := fun cs => passTo cs.length cs

/-- One field of a structure that is being read. -/
structure Slot (σ : Type) where
  name : String
  required : Bool
  read : σ → Reader σ

/-- A structure with the fields in their order. Names that it does not know are passed over. -/
structure Shape (σ : Type) where
  name : String
  slots : List (Slot σ)

namespace Shape

variable {σ : Type}

def find? (shape : Shape σ) (name : String) : Option (Slot σ) :=
  shape.slots.find? fun slot => slot.name == name

/-- Reads what follows the name of a member; a field may not be given twice. -/
def member (shape : Shape σ) (name : String) (state : σ × List String) :
    Reader (σ × List String) := fun cs =>
  match shape.find? name with
  | none => (afterColon pass cs).map fun (_, rest) => (state, rest)
  | some slot =>
    if state.2.contains name then .error (.mismatch (.duplicateField name))
    else
      (afterColon (slot.read state.1) cs).map fun (found, rest) => ((found, name :: state.2), rest)

/-- The first required field that was not given. -/
def missing? (shape : Shape σ) (given : List String) : Option String :=
  (shape.slots.find? fun slot => slot.required && !given.contains slot.name).map Slot.name

/-- Whether another item of an array follows, and the text from it on. -/
def nextItem? (first : Bool) (cs : Decoded) : Except Refusal (Option Decoded) :=
  match skipBlank cs with
  | some ']' :: _ => .ok none
  | [] => .error .grammar
  | c :: cs =>
    if first then .ok (some (c :: cs))
    else if c = some ',' then
      match skipBlank cs with
      | some ']' :: _ => .error .grammar
      | cs => .ok (some cs)
    else .error .grammar

/-- The fields as items of an array, up to the closing bracket. -/
def positional (shape : Shape σ) (position : Nat) (state : σ) : List (Slot σ) → Reader σ
  | [], cs =>
    match skipBlank cs with
    | some ']' :: rest => .ok (state, rest)
    | _ => .error .grammar
  | slot :: slots, cs =>
    match nextItem? (position == 0) cs with
    | .error refusal => .error refusal
    | .ok (some cs) =>
      match slot.read state cs with
      | .error refusal => .error refusal
      | .ok (state, cs) => positional shape (position + 1) state slots cs
    | .ok none =>
      if slot.required then
        .error (.mismatch (.invalidLength position
          (shape.name ++ " with " ++ Nat.repr shape.slots.length ++ " elements")))
      else positional shape (position + 1) state slots cs

/-- An object with the fields as members, or an array with them as items. -/
def read (shape : Shape σ) (blank : σ) : Reader σ := fun cs =>
  match skipBlank cs with
  | some '[' :: cs => shape.positional 0 blank shape.slots cs
  | some '\x7b' :: cs =>
    match members string shape.member (blank, []) cs with
    | .error refusal => .error refusal
    | .ok ((state, given), rest) =>
      match shape.missing? given with
      | some name => .error (.mismatch (.missingField name))
      | none => .ok (state, rest)
  | cs => typeMismatch shape.name cs

end Shape

end JsonText

end ImageCatalog
