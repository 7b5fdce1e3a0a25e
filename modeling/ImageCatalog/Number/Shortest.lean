import ImageCatalog.Number.Binary64

set_option autoImplicit false

namespace ImageCatalog

def integerText (n : Int) : String :=
  if n < 0 then "-" ++ Nat.repr n.natAbs else Nat.repr n.natAbs

/-- The number `0.d₁d₂… * 10 ^ point`, with neither leading nor trailing zeros in the digits. -/
structure Decimal where
  digits : Nat
  point : Int
deriving DecidableEq, Inhabited

/-- Which of two equally near decimals is written. -/
inductive Tie where
  | upward
  | toEven
deriving DecidableEq

namespace Decimal

/-- The decimal digits of a positive number without its trailing zeros, and how many were cut. -/
def stripZeros : Nat → Nat → Nat × Nat
  | 0, n => (n, 0)
  | fuel + 1, n =>
    if n % 10 = 0 then
      let (stripped, cut) := stripZeros fuel (n / 10)
      (stripped, cut + 1)
    else (n, 0)

def digitCount (n : Nat) : Nat := (Nat.toDigits 10 n).length

def ofGrid (grid : Nat) (exponent : Int) : Decimal :=
  let (digits, _) := stripZeros (digitCount grid) grid
  ⟨digits, digitCount grid + exponent⟩

/-- The greatest `k` with `10 ^ k ≤ num / den`, both positive. The estimate from the binary
logarithm is off by one at most. -/
def exponentOf (num den : Nat) : Int :=
  let reaches (k : Int) : Bool :=
    if 0 ≤ k then decide (den * Nat.pow 10 k.toNat ≤ num)
    else decide (den ≤ num * Nat.pow 10 (-k).toNat)
  let estimate := (((num.log2 : Int) - den.log2) * 30103) / 100000
  if reaches (estimate + 1) then estimate + 1
  else if reaches estimate then estimate
  else estimate - 1

/-- The reals that round to a word, as quarters of its last significant bit: both ends belong to
it iff the significand is even. -/
structure Cell where
  low : Nat
  middle : Nat
  high : Nat
  closed : Bool

/-- The cell of a positive finite word; below a power of two the spacing is half as wide. -/
def Cell.of (x : Binary64) : Cell :=
  let quarters := 4 * x.significand
  { low := quarters - (if x.fraction = 0 && 1 < x.field then 1 else 2)
    middle := quarters
    high := quarters + 2
    closed := x.significand % 2 == 0 }

/-- The point of the grid of `count` digits that reads back, if there is one. -/
def onGrid? (tie : Tie) (cell : Cell) (num den : Nat) (exponent : Int) (count : Nat) :
    Option Decimal :=
  let step := exponent - (count : Int) + 1
  let numScale := if step < 0 then Nat.pow 10 (-step).toNat else 1
  let denScale := if 0 ≤ step then Nat.pow 10 step.toNat else 1
  let value := num * cell.middle * numScale
  let unit := den * denScale
  let below := value / unit
  let lower := num * cell.low * numScale
  let upper := num * cell.high * numScale
  let inside (grid : Nat) : Bool :=
    if cell.closed then decide (lower ≤ grid * unit ∧ grid * unit ≤ upper)
    else decide (lower < grid * unit ∧ grid * unit < upper)
  let twice := 2 * (value % unit)
  let nearestBelow :=
    twice < unit || (twice == unit && (match tie with
      | .upward => false
      | .toEven => below % 2 == 0))
  match inside below, inside (below + 1) with
  | true, true => some (ofGrid (if nearestBelow then below else below + 1) step)
  | true, false => some (ofGrid below step)
  | false, true => some (ofGrid (below + 1) step)
  | false, false => none

/-- The shortest decimal of a positive finite word. Seventeen digits always suffice. -/
def shortest (tie : Tie) (x : Binary64) : Decimal :=
  let cell := Cell.of x
  let num := 1 <<< x.scale
  let den := 4 * Binary64.unitsPerOne
  let exponent := exponentOf (num * cell.middle) den
  ((List.range 17).findSome? fun n => onGrid? tie cell num den exponent (n + 1)).getD
    ⟨0, 0⟩

end Decimal

/-- How a number is laid out as text. -/
structure Layout where
  tie : Tie
  /-- Whether a number with this position of the point is written without an exponent. -/
  positional : Int → Bool
  /-- Whether an integral number keeps a zero after the point. -/
  keepsPoint : Bool
  /-- Whether a positive exponent has a sign. -/
  signsExponent : Bool

namespace Layout

def zeros (n : Nat) : String := String.ofList (List.replicate n '0')

/-- The decimal written without an exponent. -/
def positionalText (layout : Layout) (d : Decimal) : String :=
  let digits := (Nat.toDigits 10 d.digits)
  let count : Int := digits.length
  if d.point ≤ 0 then "0." ++ zeros (-d.point).toNat ++ String.ofList digits
  else if count ≤ d.point then
    String.ofList digits ++ zeros (d.point - count).toNat
      ++ (if layout.keepsPoint then ".0" else "")
  else
    String.ofList (digits.take d.point.toNat) ++ "." ++ String.ofList (digits.drop d.point.toNat)

def exponentText (layout : Layout) (d : Decimal) : String :=
  let digits := (Nat.toDigits 10 d.digits)
  let exponent := d.point - 1
  let mantissa :=
    String.ofList (digits.take 1) ++
      (if digits.length ≤ 1 then "" else "." ++ String.ofList (digits.drop 1))
  let sign := if exponent < 0 then "-" else if layout.signsExponent then "+" else ""
  mantissa ++ "e" ++ sign ++ Nat.repr exponent.natAbs

def text (layout : Layout) (x : Binary64) : String :=
  if x.isNaN then "NaN"
  else
    let sign := if x.isNegative then "-" else ""
    if !x.isFinite then sign ++ "inf"
    else if x.magnitude = 0 then sign ++ (if layout.keepsPoint then "0.0" else "0")
    else
      let d := Decimal.shortest layout.tie x
      sign ++ (if layout.positional d.point then layout.positionalText d else layout.exponentText d)

end Layout

end ImageCatalog
