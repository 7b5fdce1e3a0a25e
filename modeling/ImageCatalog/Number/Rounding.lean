import ImageCatalog.Number.Binary64

set_option autoImplicit false

namespace ImageCatalog

namespace Binary64

/-- The quotient rounded to the nearest integer, a half to the even one. -/
def divideToEven (num den : Nat) : Nat :=
  let quotient := num / den
  let twice := 2 * (num % den)
  if twice < den then quotient
  else if den < twice then quotient + 1
  else quotient + quotient % 2

/-- The word nearest to `num / den`. Consecutive words are consecutive numbers, so a significand
that rounds up to `2 ^ 53` carries into the exponent by plain addition, and what passes the
largest finite word is an infinity. -/
def ofRatio (negative : Bool) (num den : Nat) : Binary64 :=
  let units := num * unitsPerOne
  let scale := (units / den).log2 - 52
  let word := scale * hiddenBit + divideToEven units (den <<< scale)
  ofWord negative (min word infinityWord)

def ofInt (n : Int) : Binary64 := ofRatio (decide (n < 0)) n.natAbs 1

def ofInt64 (n : Int64) : Binary64 := ofInt n.toInt

def ofUnsigned (n : UInt64) : Binary64 := ofRatio false n.toNat 1

/-- The word nearest to `digits * 10 ^ exponent`. Beyond 310 places before the point every number
is an infinity, and beyond 330 places after it every number is zero. -/
def ofDecimal (negative : Bool) (digits : Nat) (exponent : Int) : Binary64 :=
  if digits = 0 then ofWord negative 0
  else
    let places : Int := (digits.log2 : Int) * 3 / 10 + exponent
    if 330 < places then infinity negative
    else if places + digits.log2 / 30 < -350 then ofWord negative 0
    else if 0 ≤ exponent then ofRatio negative (digits * Nat.pow 10 exponent.toNat) 1
    else ofRatio negative digits (Nat.pow 10 (-exponent).toNat)

def product (negative : Bool) (x y : Binary64) : Binary64 :=
  ofRatio negative (x.magnitude * y.magnitude) (unitsPerOne * unitsPerOne)

def quotient (negative : Bool) (x y : Binary64) : Binary64 :=
  ofRatio negative x.magnitude y.magnitude

def powerOfTen (n : Nat) : Binary64 := ofRatio false (Nat.pow 10 n) 1

/-- The number denoted by a 32-bit word, which every 64-bit word system holds exactly. A NaN
keeps its payload at the top of the fraction and becomes quiet. -/
def ofSingle (bits : UInt32) : Binary64 :=
  let word := bits.toNat
  let negative := decide (0x80000000 ≤ word)
  let field := word / 0x800000 % 256
  let fraction := word % 0x800000
  if field = 255 then
    if fraction = 0 then infinity negative
    else ofWord negative (infinityWord + (quietBit ||| fraction <<< 29))
  else
    let significand := if field = 0 then fraction else 0x800000 + fraction
    ofRatio negative (significand <<< (field - 1)) (1 <<< 149)

end Binary64

end ImageCatalog
