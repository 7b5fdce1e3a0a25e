import ImageCatalog.Number.Rounding
import ImageCatalog.Text.Blank

set_option autoImplicit false

namespace ImageCatalog

namespace Numeral

def spanDigits (cs : List Char) : List Char × List Char :=
  (cs.takeWhile Char.isDigit, cs.dropWhile Char.isDigit)

/-- The number that a list of decimal digits writes. -/
def ofDigits (cs : List Char) : Nat := Nat.ofDigitChars 10 cs 0

/-- A sign at the front, if there is one, and what follows it. -/
def splitSign : List Char → Bool × List Char
  | '-' :: cs => (true, cs)
  | '+' :: cs => (false, cs)
  | cs => (false, cs)

/-- A sign, one digit or more, within 64 bits. -/
def int64? (text : String) : Option Int64 :=
  let (negative, cs) := splitSign (Text.trim text.toList)
  match spanDigits cs with
  | (digit :: digits, []) =>
    let n := ofDigits (digit :: digits)
    let n : Int := if negative then -(n : Int) else n
    if Binary64.fitsInt64 n then some (Int64.ofInt n) else none
  | _ => none

/-- The exponent at the front: an `e`, a sign and one digit or more. -/
def exponent? : List Char → Option Int
  | [] => some 0
  | c :: cs =>
    if c = 'e' ∨ c = 'E' then
      let (negative, cs) := splitSign cs
      match spanDigits cs with
      | (digit :: digits, []) =>
        let n := ofDigits (digit :: digits)
        some (if negative then -(n : Int) else n)
      | _ => none
    else none

/-- The words for numbers that are not finite, in any case. -/
def special? (negative : Bool) (cs : List Char) : Option Binary64 :=
  match String.ofList (cs.map Char.toLower) with
  | "inf" => some (Binary64.infinity negative)
  | "infinity" => some (Binary64.infinity negative)
  | "nan" => some (Binary64.quietNaN negative)
  | _ => none

/-- Digits with at most one point among them, and an exponent. -/
def decimal? (negative : Bool) (cs : List Char) : Option Binary64 :=
  let (whole, rest) := spanDigits cs
  let (fraction, rest) :=
    match rest with
    | '.' :: rest => spanDigits rest
    | rest => ([], rest)
  if whole.isEmpty && fraction.isEmpty then none
  else
    (exponent? rest).map fun exponent =>
      Binary64.ofDecimal negative (ofDigits (whole ++ fraction)) (exponent - fraction.length)

def binary64? (text : String) : Option Binary64 :=
  let (negative, cs) := splitSign (Text.trim text.toList)
  (special? negative cs).or (decimal? negative cs)

end Numeral

end ImageCatalog
