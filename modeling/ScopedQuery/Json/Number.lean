import ScopedQuery.Decimal.Basic
import ScopedQuery.Json.Basic

set_option autoImplicit false

/-!
Numbers in JSON text. A number without point and exponent that fits 64 bits is whole; every other
one is a double, computed from at most nineteen or twenty leading digits by a single multiplication
or division with a power of ten.
-/

namespace ScopedQuery.Json

def powerOfTen (e : Nat) : Float := Float.ofScientific 1 false e

/-- A significand times a power of ten. Exponents beyond the powers that are doubles are brought
into range by repeated division; a product that overflows has no value. -/
def scaled? : Nat → Float → Int → Option Float
  | 0, _, _ => none
  | fuel + 1, f, e =>
    if e.natAbs ≤ 308 then
      if 0 ≤ e then
        let product := f * powerOfTen e.natAbs
        if product.isInf then none else some product
      else some (f / powerOfTen e.natAbs)
    else if f == 0 then some f
    else if 0 ≤ e then none
    else scaled? fuel (f / powerOfTen 308) (e + 308)

def double? (negative : Bool) (significand : Nat) (e : Int) : Option Float :=
  (scaled? (e.natAbs / 308 + 2) (Float.ofNat significand) e).map fun f => if negative then -f else f

/-- Digits taken into a significand as long as it fits 64 bits, and the digits left over. -/
def significandOf (start : Nat) : List Char → Nat × List Char
  | [] => (start, [])
  | c :: r =>
    let next := 10 * start + (c.toNat - '0'.toNat)
    if next < Decimal.wordLimit then significandOf next r else (start, c :: r)

def exponentLimit : Nat := 2147483648

/-- The significand and the exponent that the digits before and after the point give: whole digits
beyond the significand raise the exponent, and from the first fraction digit beyond it on all are
dropped. -/
def significand (whole fraction : List Char) : Nat × Int :=
  let (high, left) := significandOf 0 whole
  let (all, dropped) := significandOf high fraction
  (all, (left.length : Int) - ((fraction.length - dropped.length : Nat) : Int))

def clampExponent (e : Int) : Int :=
  if e < -(exponentLimit : Int) then -exponentLimit
  else if e < exponentLimit then e
  else exponentLimit - 1

def ofParts? (negative : Bool) (whole : List Char) (fraction : Option (List Char))
    (exponent : Option (Bool × List Char)) : Option Json :=
  let (n, e) := significand whole (fraction.getD [])
  match fraction, exponent with
  | none, none =>
    let value := Decimal.natOfDigits whole
    if !negative && value < Decimal.wordLimit then some (.int value)
    else if negative && 0 < value && value ≤ Decimal.signedLimit then some (.int (-value))
    else (double? negative n e).map .float
  | _, none => (double? negative n e).map .float
  | _, some (negativeExponent, digits) =>
    let size := Decimal.natOfDigits digits
    if exponentLimit ≤ size then
      if n != 0 && !negativeExponent then none
      else some (.float (if negative then -0.0 else 0.0))
    else
      let shift : Int := if negativeExponent then -size else size
      (double? negative n (clampExponent (e + shift))).map .float

/-- An optional exponent at the head of a text: its sign and digits, and what follows. A mark
without digits is an error. -/
def readExponent (cs : List Char) : Option (Option (Bool × List Char) × List Char) :=
  match cs with
  | c :: r =>
    if c == 'e' || c == 'E' then
      let negative := r.head? == some '-'
      let body := if negative || r.head? == some '+' then r.drop 1 else r
      let digits := body.takeWhile Char.isDigit
      if digits.isEmpty then none
      else some (some (negative, digits), body.dropWhile Char.isDigit)
    else some (none, cs)
  | [] => some (none, [])

/-- An optional fraction at the head of a text, and what follows. A point without digits is an
error. -/
def readFraction (cs : List Char) : Option (Option (List Char) × List Char) :=
  match cs with
  | '.' :: r =>
    let digits := r.takeWhile Char.isDigit
    if digits.isEmpty then none else some (some digits, r.dropWhile Char.isDigit)
  | _ => some (none, cs)

/-- A number at the head of a text, and what follows it. A leading zero stands alone. -/
def readNumber (cs : List Char) : Option (Json × List Char) := do
  let negative := cs.head? == some '-'
  let body := if negative then cs.drop 1 else cs
  let whole := body.takeWhile Char.isDigit
  if whole.isEmpty || (whole.head? == some '0' && 1 < whole.length) then none
  let (fraction, rest) ← readFraction (body.dropWhile Char.isDigit)
  let (exponent, rest) ← readExponent rest
  let value ← ofParts? negative whole fraction exponent
  pure (value, rest)

end ScopedQuery.Json
