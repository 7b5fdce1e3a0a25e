import ImageCatalog.Number.Rounding

set_option autoImplicit false

namespace ImageCatalog

namespace Binary64

def leastInt64 : Binary64 := ⟨0xc3e0000000000000⟩

/-- The first number past the integers of 64 bits, `2 ^ 63`. -/
def pastInt64 : Binary64 := ⟨0x43e0000000000000⟩

def truncate (x : Binary64) : Int := Int.tdiv x.units unitsPerOne

def clampInt64 (n : Int) : Int64 :=
  if n < Int64.minValue.toInt then Int64.minValue
  else if Int64.maxValue.toInt < n then Int64.maxValue
  else Int64.ofInt n

/-- The number cut to an integer of 64 bits: without its fraction, and clamped. A NaN gives zero. -/
def toInt64 (x : Binary64) : Int64 := if x.isNaN then 0 else clampInt64 x.truncate

def withinInt64 (x : Binary64) : Bool := leastInt64.numLe x && x.numLt pastInt64

/-- The 64-bit integer that the word denotes, if it denotes one: the one it is cut to, if that is
the same number again. -/
def integer? (x : Binary64) : Option Int64 :=
  if x.withinInt64 && (ofInt64 x.toInt64).numEq x then some x.toInt64 else none

/-- The integer just below a number with a fraction. -/
def floorInt64 (x : Binary64) : Int64 :=
  if x.numLt zero then x.toInt64 - 1 else x.toInt64

/-- The order of an integer and a floating-point number; a NaN has none. -/
def orderOfInt? (n : Int64) (x : Binary64) : Option Ordering :=
  if x.isNaN then none
  else
    match x.integer? with
    | some m => some (compare n.toInt m.toInt)
    | none =>
      if pastInt64.numLe x then some .lt
      else if x.numLt leastInt64 then some .gt
      -- The number has a fraction here, so the integer is never equal to it.
      else some (if n ≤ x.floorInt64 then .lt else .gt)

end Binary64

end ImageCatalog
