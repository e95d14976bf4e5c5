import ScopedQuery.Decimal.Basic
import ScopedQuery.Yaml.Scalar

set_option autoImplicit false

namespace ScopedQuery.Yaml

def meansNull (text : String) : Bool := ["", "null", "Null", "NULL", "~"].contains text

def boolOf? (text : String) : Option Bool :=
  if ["true", "True", "TRUE"].contains text then some true
  else if ["false", "False", "FALSE"].contains text then some false
  else none

def numberOf? (base : Nat) (cs : List Char) : Option Nat :=
  if cs.isEmpty then none
  else cs.foldl (fun n c => do
    let n ← n
    let digit ← hexDigit? c
    if digit < base then pure (n * base + digit) else none) (some 0)

/-- The number without a sign that a scalar denotes: in base sixteen, eight or two behind a zero and
a letter, in base ten without a needless zero in front. -/
def magnitude? (cs : List Char) : Option Nat :=
  match cs with
  | '0' :: 'x' :: r => numberOf? 16 r
  | '0' :: 'o' :: r => numberOf? 8 r
  | '0' :: 'b' :: r => numberOf? 2 r
  | '0' :: _ :: _ => none
  | cs => numberOf? 10 cs

def integerOf? (text : String) : Option Int :=
  match text.toList with
  | '-' :: r => (magnitude? r).map fun n => -(n : Int)
  | '+' :: r => (magnitude? r).map Int.ofNat
  | r => (magnitude? r).map Int.ofNat

/-- The number without a sign that a plain scalar denotes; a minus sign is refused before zero
too. -/
def naturalOf? (text : String) : Option Nat :=
  match text.toList with
  | '+' :: r => magnitude? r
  | r => magnitude? r

end ScopedQuery.Yaml
