import ImageCatalog.Json.Basic
import ImageCatalog.Number.Reading
import ImageCatalog.Value.Render
import ImageCatalog.Record.Dictionary
import ImageCatalog.Text.Decoded

/-! Reading JSON text. A reader takes what it reads from the front of the text and leaves the
rest. Values nest at most 127 arrays and objects deep. A byte that belongs to no character is part
of no value. -/

set_option autoImplicit false

namespace ImageCatalog

namespace JsonText

open Text (Decoded)

/-- What stands in a text where something else is expected. -/
inductive Found where
  | null
  | bool (b : Bool)
  | number (n : JsonNumber)
  | string (s : String)
  | sequence
  | map
deriving DecidableEq

namespace Found

def describe : Found → String
  | .null => "null"
  | .bool b => "boolean \x60" ++ Value.booleanText b ++ "\x60"
  | .number (.integer n) => "integer \x60" ++ integerText n ++ "\x60"
  | .number (.float x) => "floating point \x60" ++ JsonNumber.layout.text x ++ "\x60"
  | .string s => "string " ++ Text.quoted s
  | .sequence => "sequence"
  | .map => "map"

end Found

/-- Why well-formed text does not describe what is wanted. -/
inductive Mismatch where
  | missingField (name : String)
  | duplicateField (name : String)
  | invalidType (found : Found) (expected : String)
  | invalidValue (found : Found) (expected : String)
  | unknownVariant (name expected : String)
  | invalidLength (length : Nat) (expected : String)
deriving DecidableEq

namespace Mismatch

def message : Mismatch → String
  | .missingField name => "missing field \x60" ++ name ++ "\x60"
  | .duplicateField name => "duplicate field \x60" ++ name ++ "\x60"
  | .invalidType found expected => "invalid type: " ++ found.describe ++ ", expected " ++ expected
  | .invalidValue found expected => "invalid value: " ++ found.describe ++ ", expected " ++ expected
  | .unknownVariant name expected => "unknown variant \x60" ++ name ++ "\x60, expected " ++ expected
  | .invalidLength length expected =>
    "invalid length " ++ Nat.repr length ++ ", expected " ++ expected

end Mismatch

/-- Why a text is refused: it is not JSON, or it does not hold what is wanted. -/
inductive Refusal where
  | grammar
  | mismatch (cause : Mismatch)
deriving DecidableEq

/-- Reads from the front of a text and gives what is left. -/
abbrev Reader (α : Type) : Type := Decoded → Except Refusal (α × Decoded)

def isBlank (c : Char) : Bool := c == ' ' || c == '\t' || c == '\n' || c == '\r'

def skipBlank (cs : Decoded) : Decoded := cs.dropWhile (·.any isBlank)

/-- Requires the characters of `word` and gives `result`. -/
def word {α : Type} (result : α) : List Char → Reader α
  | [], cs => .ok (result, cs)
  | _ :: _, [] => .error .grammar
  | w :: ws, c :: cs => if c = some w then word result ws cs else .error .grammar

/-- The digits at the front, and what follows them. -/
def spanDigits : Decoded → List Char × Decoded
  | some c :: cs =>
    if c.isDigit then (spanDigits cs).map (c :: ·) id else ([], some c :: cs)
  | cs => ([], cs)

def digits : Reader (List Char) := fun cs =>
  match spanDigits cs with
  | ([], _) => .error .grammar
  | found => .ok found

/-- The digits before the point, without a leading zero. -/
def wholePart : Reader (List Char)
  | some '0' :: cs =>
    match spanDigits cs with
    | ([], _) => .ok (['0'], cs)
    | _ => .error .grammar
  | cs => digits cs

/-- A point and the digits after it, if there is a point. -/
def fractionPart : Reader (Option (List Char))
  | some '.' :: cs => (digits cs).map fun (found, cs) => (some found, cs)
  | cs => .ok (none, cs)

def exponentSign : Decoded → Bool × Decoded
  | some '-' :: cs => (true, cs)
  | some '+' :: cs => (false, cs)
  | cs => (false, cs)

/-- A letter `e` and the exponent after it, if there is that letter. -/
def exponentPart : Reader (Option Int)
  | some c :: cs =>
    if c = 'e' ∨ c = 'E' then
      let (negative, cs) := exponentSign cs
      (digits cs).map fun (found, cs) =>
        let n := Numeral.ofDigits found
        (some (if negative then -(n : Int) else n), cs)
    else .ok (none, some c :: cs)
  | cs => .ok (none, cs)

def numberParts : Reader (List Char × Option (List Char) × Option Int) := fun cs => do
  let (whole, cs) ← wholePart cs
  let (fraction, cs) ← fractionPart cs
  let (exponent, cs) ← exponentPart cs
  return ((whole, fraction, exponent), cs)

/-- The integer with this sign and magnitude, if it has at most 64 bits. Zero has no negative
integer. -/
def integer? (negative : Bool) (n : Nat) : Option Int :=
  if negative then
    if n = 0 ∨ ¬Binary64.fitsInt64 (-(n : Int)) then none else some (-(n : Int))
  else if n < UInt64.size then some n
  else none

/-- Digits put behind those of a number while it stays within 64 bits, and the digits that are left
from the first one on that does not fit. -/
def takeDigits : Nat → List Char → Nat × List Char
  | n, [] => (n, [])
  | n, c :: cs =>
    if 10 * n + (c.toNat - '0'.toNat) < UInt64.size then
      takeDigits (10 * n + (c.toNat - '0'.toNat)) cs
    else (n, c :: cs)

/-- Divides by `10 ^ 308` a number of times. -/
def shrink : Nat → Binary64 → Binary64
  | 0, x => x
  | times + 1, x =>
    if x.magnitude = 0 then x
    else shrink times (Binary64.quotient false x (Binary64.powerOfTen 308))

/-- The number `significand * 10 ^ exponent`, for which a power of ten no greater than `10 ^ 308` is
multiplied by or divided by. Each factor and each result is rounded, so what comes out need not be
the nearest number. -/
def scaled (negative : Bool) (significand : Nat) (exponent : Int) : Binary64 :=
  let x := Binary64.ofRatio false significand 1
  if exponent < 0 then
    let places := (-exponent).toNat
    let times := (places - 1) / 308
    Binary64.quotient negative (shrink times x) (Binary64.powerOfTen (places - 308 * times))
  else if exponent ≤ 308 then
    Binary64.product negative x (Binary64.powerOfTen exponent.toNat)
  else if significand = 0 then Binary64.ofWord negative 0
  else Binary64.infinity negative

/-- The number with these digits before and after the point. Digits that are left over before it
count as places, and those after it not at all. -/
def decimal (negative : Bool) (whole fraction : List Char) (exponent : Int) : Binary64 :=
  let (n, beyond) := takeDigits 0 whole
  let (n, rest) := takeDigits n fraction
  scaled negative n (exponent + beyond.length - (fraction.length - rest.length))

/-- The number made of these parts; an infinity is refused. -/
def assemble (negative : Bool) (whole : List Char) (fraction : Option (List Char))
    (exponent : Option Int) : Except Refusal JsonNumber :=
  let integer := if fraction.isNone && exponent.isNone then
    integer? negative (Numeral.ofDigits whole) else none
  match integer with
  | some n => .ok (.integer n)
  | none =>
    let x := decimal negative whole (fraction.getD []) (exponent.getD 0)
    if x.isFinite then .ok (.float x) else .error .grammar

def splitMinus : Decoded → Bool × Decoded
  | some '-' :: cs => (true, cs)
  | cs => (false, cs)

def number : Reader JsonNumber := fun cs => do
  let (negative, cs) := splitMinus cs
  let ((whole, fraction, exponent), cs) ← numberParts cs
  let n ← assemble negative whole fraction exponent
  return (n, cs)

def hexValue? (c : Char) : Option Nat :=
  if c.isDigit then some (c.toNat - 0x30)
  else if 'a' ≤ c ∧ c ≤ 'f' then some (c.toNat - 0x57)
  else if 'A' ≤ c ∧ c ≤ 'F' then some (c.toNat - 0x37)
  else none

def codeUnit? (a b c d : Char) : Option Nat := do
  let a ← hexValue? a
  let b ← hexValue? b
  let c ← hexValue? c
  let d ← hexValue? d
  return ((a * 16 + b) * 16 + c) * 16 + d

def isHighSurrogate (n : Nat) : Bool := decide (0xd800 ≤ n ∧ n < 0xdc00)

def isLowSurrogate (n : Nat) : Bool := decide (0xdc00 ≤ n ∧ n < 0xe000)

def ofSurrogates (high low : Nat) : Char :=
  Char.ofNat (0x10000 + (high - 0xd800) * 0x400 + (low - 0xdc00))

def escaped? : Char → Option Char
  | '"' => some '"'
  | '\\' => some '\\'
  | '/' => some '/'
  | 'b' => some '\x08'
  | 'f' => some '\x0c'
  | 'n' => some '\n'
  | 'r' => some '\r'
  | 't' => some '\t'
  | _ => none

def prepend (c : Char) : Except Refusal (List Char × Decoded) →
    Except Refusal (List Char × Decoded) :=
  Except.map fun (found, rest) => (c :: found, rest)

/-- The characters of a string up to its closing quote. A high surrogate has to be followed by a
low one. -/
def stringBody : Reader (List Char)
  | some '"' :: cs => .ok ([], cs)
  | some '\\' :: some 'u' :: some a :: some b :: some c :: some d :: cs =>
    match codeUnit? a b c d with
    | none => .error .grammar
    | some unit =>
      if isHighSurrogate unit then
        match cs with
        | some '\\' :: some 'u' :: some e :: some f :: some g :: some h :: cs =>
          match codeUnit? e f g h with
          | none => .error .grammar
          | some low =>
            if isLowSurrogate low then prepend (ofSurrogates unit low) (stringBody cs)
            else .error .grammar
        | _ => .error .grammar
      else if isLowSurrogate unit then .error .grammar
      else prepend (Char.ofNat unit) (stringBody cs)
  | some '\\' :: some c :: cs =>
    match escaped? c with
    | some c => prepend c (stringBody cs)
    | none => .error .grammar
  | some c :: cs =>
    if c.toNat < 0x20 || c == '\\' then .error .grammar else prepend c (stringBody cs)
  | _ => .error .grammar

def string : Reader String := fun cs =>
  (stringBody cs).map fun (found, rest) => (String.ofList found, rest)

/-- Items up to the closing bracket, the first of which has to be there. Every item takes a
character at least, so the length of the text bounds their number. -/
def itemsFrom {α : Type} (item : Reader α) : Nat → Reader (List α)
  | 0, _ => .error .grammar
  | fuel + 1, cs =>
    match item cs with
    | .error refusal => .error refusal
    | .ok (found, cs) =>
      match skipBlank cs with
      | some ',' :: cs => (itemsFrom item fuel cs).map fun (others, cs) => (found :: others, cs)
      | some ']' :: cs => .ok ([found], cs)
      | _ => .error .grammar

def items {α : Type} (item : Reader α) : Reader (List α) := fun cs =>
  match skipBlank cs with
  | some ']' :: cs => .ok ([], cs)
  | cs => itemsFrom item cs.length cs

def memberName (name : Reader String) : Reader String := fun cs =>
  match skipBlank cs with
  | some '"' :: cs => name cs
  | _ => .error .grammar

/-- The value of a member, which a colon precedes. -/
def afterColon {α : Type} (reader : Reader α) : Reader α := fun cs =>
  match skipBlank cs with
  | some ':' :: cs => reader cs
  | _ => .error .grammar

/-- What members up to the closing brace make of a state, the first of which has to be there. What
follows a name, from the colon on, is left to `member`. -/
def membersFrom {σ : Type} (name : Reader String) (member : String → σ → Reader σ) :
    Nat → σ → Reader σ
  | 0, _, _ => .error .grammar
  | fuel + 1, state, cs =>
    match memberName name cs with
    | .error refusal => .error refusal
    | .ok (key, cs) =>
      match member key state cs with
      | .error refusal => .error refusal
      | .ok (state, cs) =>
        match skipBlank cs with
        | some ',' :: cs => membersFrom name member fuel state cs
        | some '\x7d' :: cs => .ok (state, cs)
        | _ => .error .grammar

def members {σ : Type} (name : Reader String) (member : String → σ → Reader σ) (state : σ) :
    Reader σ := fun cs =>
  match skipBlank cs with
  | some '\x7d' :: cs => .ok (state, cs)
  | cs => membersFrom name member cs.length state cs

def valueWith (array object : Reader Json) : Reader Json := fun cs =>
  match skipBlank cs with
  | some 'n' :: cs => word .null ['u', 'l', 'l'] cs
  | some 't' :: cs => word (.bool true) ['r', 'u', 'e'] cs
  | some 'f' :: cs => word (.bool false) ['a', 'l', 's', 'e'] cs
  | some '"' :: cs => (string cs).map fun (s, cs) => (.string s, cs)
  | some '[' :: cs => array cs
  | some '\x7b' :: cs => object cs
  | cs => (number cs).map fun (n, cs) => (.number n, cs)

/-- Adds a member; of two with one name the later stays. -/
def addMember (value : Reader Json) (name : String) (found : List (String × Json)) :
    Reader (List (String × Json)) := fun cs =>
  (afterColon value cs).map fun (json, cs) => (Dictionary.insert name json found, cs)

/-- A value that nests at most `depth` deep. -/
def value : Nat → Reader Json
  | 0 => valueWith (fun _ => .error .grammar) (fun _ => .error .grammar)
  | depth + 1 =>
    valueWith (fun cs => (items (value depth) cs).map fun (found, cs) => (.array found, cs))
      fun cs =>
        (members string (addMember (value depth)) [] cs).map fun (found, cs) => (.object found, cs)

/-- The depth to which text may nest. -/
def depthLimit : Nat := 127

/-- The whole text, with nothing but white space around what `reader` reads. -/
def readAll {α : Type} (reader : Reader α) (text : Decoded) : Except Refusal α :=
  match reader text with
  | .error refusal => .error refusal
  | .ok (found, rest) => if (skipBlank rest).isEmpty then .ok found else .error .grammar

def readText {α : Type} (reader : Reader α) (text : String) : Except Refusal α :=
  readAll reader (Text.ofString text)

end JsonText

namespace Json

def parse (text : String) : Except JsonText.Refusal Json :=
  JsonText.readText (JsonText.value JsonText.depthLimit) text

end Json

end ImageCatalog
