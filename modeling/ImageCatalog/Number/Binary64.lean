/-! Binary64 words and the numbers they denote. Every word that is not a NaN denotes a whole
number of units of `2 ^ (-1074)`; an infinity counts as `2 ^ 1024`, which lies past every finite
word, so one integer order serves them all. -/

set_option autoImplicit false

namespace ImageCatalog

/-- A floating-point number, given by its 64 bits. -/
structure Binary64 where
  bits : UInt64
deriving DecidableEq, Inhabited

namespace Binary64

def unitsPerOne : Nat := 1 <<< 1074

/-- The topmost bit, set in negative words. -/
def signBit : Nat := 0x8000000000000000

/-- The lowest bit of the exponent field, and the hidden bit of a normal significand. -/
def hiddenBit : Nat := 0x0010000000000000

/-- The topmost bit of the fraction, set in quiet NaNs. -/
def quietBit : Nat := 0x0008000000000000

/-- The word of the infinities without the sign. -/
def infinityWord : Nat := 0x7ff0000000000000

def isNegative (x : Binary64) : Bool := decide (signBit ≤ x.bits.toNat)

def field (x : Binary64) : Nat := x.bits.toNat / hiddenBit % 2048

def fraction (x : Binary64) : Nat := x.bits.toNat % hiddenBit

def isFinite (x : Binary64) : Bool := x.field != 2047

def isNaN (x : Binary64) : Bool := x.field == 2047 && x.fraction != 0

/-- The significand, with its hidden bit where the number is normal. -/
def significand (x : Binary64) : Nat :=
  if x.field = 0 then x.fraction else hiddenBit + x.fraction

/-- The binary logarithm of the weight of the significand's last bit, in units. -/
def scale (x : Binary64) : Nat := x.field - 1

def magnitude (x : Binary64) : Nat := x.significand <<< x.scale

def units (x : Binary64) : Int :=
  if x.isNegative then -(x.magnitude : Int) else x.magnitude

def ofWord (negative : Bool) (word : Nat) : Binary64 :=
  ⟨UInt64.ofNat (if negative then signBit + word else word)⟩

def zero : Binary64 := ofWord false 0

def infinity (negative : Bool) : Binary64 := ofWord negative infinityWord

/-- The NaN of a failed reading. -/
def quietNaN (negative : Bool) : Binary64 := ofWord negative (infinityWord + quietBit)

/-- The order of two numbers; a NaN has none. -/
def order? (x y : Binary64) : Option Ordering :=
  if x.isNaN || y.isNaN then none else some (compare x.units y.units)

/-- Numeric equality: both zeros are equal, a NaN equals nothing. -/
def numEq (x y : Binary64) : Bool := x.order? y == some .eq

def numLt (x y : Binary64) : Bool := x.order? y == some .lt

def numLe (x y : Binary64) : Bool := (x.order? y).any (· != .gt)

/-- Whether an integer is held by 64 bits with sign. -/
def fitsInt64 (n : Int) : Bool := decide (Int64.minValue.toInt ≤ n ∧ n ≤ Int64.maxValue.toInt)

end Binary64

end ImageCatalog
