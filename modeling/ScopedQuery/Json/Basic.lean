import ScopedQuery.Assoc
import ScopedQuery.Decimal.Shortest

set_option autoImplicit false

namespace ScopedQuery

inductive Json where
  | null
  | bool (value : Bool)
  /-- A whole number that fits 64 bits, with or without a sign. -/
  | int (value : Int)
  | float (value : Float)
  | str (value : String)
  | arr (items : List Json)
  | obj (members : List (String × Json))

namespace Json

instance : Inhabited Json := ⟨null⟩

def isNull : Json → Bool
  | null => true
  | _ => false

/-- The value of a member; nothing when the member is absent or the value is not an object. -/
def member? (j : Json) (name : String) : Option Json :=
  match j with
  | obj members => Assoc.find? members name
  | _ => none

/-- Doubles are written positionally from `1e-5` up to `1e15`, whole ones with a fraction of zero;
other exponents have a sign. -/
def floatStyle : Decimal.Style where
  positional e := -5 ≤ e && e < 16
  keepsFraction := true
  exponent e := (if e < 0 then "e-" else "e+") ++ Decimal.ofNat e.natAbs
  tie := .toEven

end Json

end ScopedQuery
