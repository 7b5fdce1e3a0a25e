import ImageCatalog.Number.Shortest
import ImageCatalog.Text.Quoted

set_option autoImplicit false

namespace ImageCatalog

/-- A number: an integer of at most 64 bits, with or without sign, or a floating-point number. -/
inductive JsonNumber where
  | integer (n : Int)
  | float (x : Binary64)
deriving DecidableEq, Inhabited

/-- A JSON value. A value that was read has the members of its objects in ascending order. -/
inductive Json where
  | null
  | bool (b : Bool)
  | number (n : JsonNumber)
  | string (s : String)
  | array (items : List Json)
  | object (members : List (String × Json))
deriving Inhabited

namespace JsonNumber

/-- Numeric equality of floating-point numbers; an integer is never equal to one of them. -/
def equal : JsonNumber → JsonNumber → Bool
  | .integer m, .integer n => m == n
  | .float x, .float y => x.numEq y
  | _, _ => false

/-- Numbers in JSON: an exponent from `1e16` on and below `0.00001`, and always a point or an
exponent. -/
def layout : Layout :=
  { tie := .toEven
    positional := fun point => decide (-5 < point ∧ point ≤ 16)
    keepsPoint := true
    signsExponent := true }

/-- JSON has no text for a number that is not finite. -/
def floatText (x : Binary64) : String := if x.isFinite then layout.text x else "null"

def text : JsonNumber → String
  | .integer n => integerText n
  | .float x => floatText x

end JsonNumber

namespace Json

mutual

def equal : Json → Json → Bool
  | .null, .null => true
  | .bool a, .bool b => a == b
  | .number m, .number n => m.equal n
  | .string s, .string t => s == t
  | .array as, .array bs => equalItems as bs
  | .object as, .object bs => equalMembers as bs
  | _, _ => false

def equalItems : List Json → List Json → Bool
  | [], [] => true
  | a :: as, b :: bs => a.equal b && equalItems as bs
  | _, _ => false

def equalMembers : List (String × Json) → List (String × Json) → Bool
  | [], [] => true
  | (k, a) :: as, (l, b) :: bs => k == l && a.equal b && equalMembers as bs
  | _, _ => false

end

instance : BEq Json := ⟨equal⟩

def stringChar (c : Char) : List Char :=
  match c with
  | '"' => ['\\', '"']
  | '\\' => ['\\', '\\']
  | '\x08' => ['\\', 'b']
  | '\t' => ['\\', 't']
  | '\n' => ['\\', 'n']
  | '\x0c' => ['\\', 'f']
  | '\r' => ['\\', 'r']
  | c =>
    if c.toNat < 0x20 then
      ['\\', 'u', '0', '0', Text.hexDigit (c.toNat / 16), Text.hexDigit (c.toNat % 16)]
    else [c]

def stringText (s : String) : List Char := '"' :: s.toList.flatMap stringChar ++ ['"']

/-- The white space between the parts of a text. -/
structure Style where
  /-- What precedes an item at a depth, and what precedes the end of its container. -/
  lineBreak : Nat → List Char
  /-- What follows the colon of a member. -/
  gap : List Char

namespace Style

def compact : Style := ⟨fun _ => [], []⟩

/-- One line for each item, indented by its depth. -/
def lines (indent : Nat) : Style :=
  ⟨fun depth => '\n' :: List.replicate (indent * depth) ' ', [' ']⟩

end Style

mutual

/-- The text of a value that stands at a depth. -/
def textAt (style : Style) (depth : Nat) : Json → List Char
  | .null => ['n', 'u', 'l', 'l']
  | .bool true => ['t', 'r', 'u', 'e']
  | .bool false => ['f', 'a', 'l', 's', 'e']
  | .number n => n.text.toList
  | .string s => stringText s
  | .array [] => ['[', ']']
  | .array (item :: items) =>
    '[' :: (itemsText style (depth + 1) (item :: items) ++ style.lineBreak depth ++ [']'])
  | .object [] => ['\x7b', '\x7d']
  | .object (member :: members) =>
    '\x7b' :: (membersText style (depth + 1) (member :: members) ++ style.lineBreak depth
      ++ ['\x7d'])

/-- Items, each on its line, with commas between them. -/
def itemsText (style : Style) (depth : Nat) : List Json → List Char
  | [] => []
  | item :: items =>
    style.lineBreak depth ++ textAt style depth item
      ++ (if items.isEmpty then [] else ',' :: itemsText style depth items)

def membersText (style : Style) (depth : Nat) : List (String × Json) → List Char
  | [] => []
  | (name, value) :: members =>
    style.lineBreak depth ++ stringText name ++ ':' :: style.gap ++ textAt style depth value
      ++ (if members.isEmpty then [] else ',' :: membersText style depth members)

end

def text (style : Style) (json : Json) : String := String.ofList (textAt style 0 json)

def compact (json : Json) : String := text .compact json

def pretty (indent : Nat) (json : Json) : String := text (.lines indent) json

end Json

end ImageCatalog
