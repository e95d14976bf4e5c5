import ScopedQuery.Decimal.Basic

set_option autoImplicit false

namespace ScopedQuery.Decimal

def floatOfDigits (negative : Bool) (whole fraction : List Char) : Float :=
  let x := Float.ofScientific (natOfDigits (whole ++ fraction)) true fraction.length
  if negative then -x else x

/-- A number written with a point, digits on at least one side of it, and an optional minus sign. -/
def pointed? (cs : List Char) : Option Float :=
  let negative := cs.head? == some '-'
  let body := if negative then cs.drop 1 else cs
  let whole := body.takeWhile Char.isDigit
  match body.dropWhile Char.isDigit with
  | '.' :: fraction =>
    if fraction.all Char.isDigit && !(whole.isEmpty && fraction.isEmpty) then
      some (floatOfDigits negative whole fraction)
    else none
  | _ => none

def integer? (cs : List Char) : Option Int :=
  let negative := cs.head? == some '-'
  let body := if negative then cs.drop 1 else cs
  if !body.isEmpty && body.all Char.isDigit then
    some (if negative then -(natOfDigits body : Int) else natOfDigits body)
  else none

def signedInteger? (cs : List Char) : Option Int :=
  match cs with
  | '+' :: '-' :: _ => none
  | '+' :: r => integer? r
  | _ => integer? cs

def scientific? (mantissa : List Char) (exponent : Int) : Option Float :=
  let negative := mantissa.head? == some '-'
  let body := if negative then mantissa.drop 1 else mantissa
  let whole := body.takeWhile Char.isDigit
  let fraction? := match body.dropWhile Char.isDigit with
    | [] => some []
    | '.' :: r => if r.all Char.isDigit then some r else none
    | _ => none
  fraction?.bind fun fraction =>
    if whole.isEmpty && fraction.isEmpty then none
    else
      let e := exponent - fraction.length
      let x := Float.ofScientific (natOfDigits (whole ++ fraction)) (e < 0) e.natAbs
      some (if negative then -x else x)

def real? (cs : List Char) : Option Float :=
  let isMark (c : Char) : Bool := c == 'e' || c == 'E'
  match cs.dropWhile (fun c => !isMark c) with
  | [] => scientific? cs 0
  | _ :: exponent =>
    (signedInteger? exponent).bind (scientific? (cs.takeWhile fun c => !isMark c))

end ScopedQuery.Decimal
