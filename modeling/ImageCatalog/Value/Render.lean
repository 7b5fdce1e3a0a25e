import ImageCatalog.Value.Basic
import ImageCatalog.Number.Shortest
import ImageCatalog.Text.Quoted

set_option autoImplicit false

namespace ImageCatalog

namespace Value

/-- Numbers in messages: an exponent from `1e16` on and below `0.0001`, and always a point or an
exponent. -/
def messageLayout : Layout :=
  { tie := .upward
    positional := fun point => decide (-4 < point ∧ point ≤ 16)
    keepsPoint := true
    signsExponent := false }

/-- Numbers read as strings: never an exponent, and no point unless there are digits after it. -/
def plainLayout : Layout :=
  { tie := .upward
    positional := fun _ => true
    keepsPoint := false
    signsExponent := false }

def booleanText (b : Bool) : String := if b then "true" else "false"

mutual

def render : Value → String
  | .null => "null"
  | .boolean b => booleanText b
  | .int n => integerText n.toInt
  | .float x => messageLayout.text x
  | .string s => Text.quoted s
  | .list items => "[" ++ renderItems items ++ "]"
  | .json payload => payload

def renderItems : List Value → String
  | [] => ""
  | [item] => item.render
  | item :: next :: items => item.render ++ ", " ++ renderItems (next :: items)

end

end Value

end ImageCatalog
