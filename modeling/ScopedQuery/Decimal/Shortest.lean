import ScopedQuery.Decimal.Basic

set_option autoImplicit false

/-!
The shortest decimal that reads back as a given double, computed in exact whole-number arithmetic. A
double is a whole number times a power of two; every real strictly nearer to it than to its
neighbours reads back as it, and so do the two midpoints when that whole number is even. For one
digit, two digits and so on, the two multiples of the power of ten around the value are tried; the
first count with a hit wins, and of two hits the nearer. A value exactly halfway between two hits
goes as the style of writing says.
-/

namespace ScopedQuery.Decimal

inductive Parts where
  | nan
  | infinite (negative : Bool)
  /-- `± mantissa * 2 ^ exponent`; `narrow` when the gap below is half the gap above. -/
  | finite (negative : Bool) (mantissa : Nat) (exponent : Int) (narrow : Bool)
  deriving DecidableEq

def hiddenBit : Nat := 4503599627370496

def Parts.ofBits (bits : Nat) : Parts :=
  let negative : Bool := bits / signedLimit % 2 == 1
  let biased : Nat := bits / hiddenBit % 2048
  let fraction : Nat := bits % hiddenBit
  if biased == 2047 then
    if fraction == 0 then .infinite negative else .nan
  else if biased == 0 then .finite negative fraction (-1074) false
  else
    .finite negative (hiddenBit + fraction) ((biased : Int) - 1075) (fraction == 0 && biased != 1)

/-- Decimal digits with the number of them that stand before the point, which may be negative or
beyond the last digit. -/
structure Digits where
  digits : List Char
  point : Int
  deriving DecidableEq

def wholePow (base : Nat) (e : Int) : Nat := Nat.pow base e.toNat

/-- The decimal exponent of the first digit of `mantissa * 2 ^ exponent`, for a positive
mantissa. -/
def leadingExponent (mantissa : Nat) (exponent : Int) : Int :=
  let scaled := mantissa * wholePow 2 exponent * wholePow 10 343 / wholePow 2 (-exponent)
  ((digits scaled).length : Int) - 344

inductive Tie where
  | away
  | toEven
  deriving DecidableEq, Repr

def Tie.takesUpper (t : Tie) (below rest unit : Nat) : Bool :=
  unit < 2 * rest || (unit == 2 * rest && (t == .away || below % 2 == 1))

/-- The multiple of `10 ^ e` that reads back as the double and is nearest to it, if one does. -/
def onGrid? (tie : Tie) (mantissa : Nat) (exponent : Int) (narrow : Bool) (e : Int) : Option Nat :=
  let quarter := exponent - 2
  let unit := wholePow 10 e * wholePow 2 (-quarter)
  let scale := wholePow 2 quarter * wholePow 10 (-e)
  let value := 4 * mantissa * scale
  let low := (4 * mantissa - if narrow then 1 else 2) * scale
  let high := (4 * mantissa + 2) * scale
  let readsBack (d : Nat) : Bool :=
    if mantissa % 2 == 0 then low ≤ d * unit && d * unit ≤ high
    else low < d * unit && d * unit < high
  let below := value / unit
  let above := below + 1
  if readsBack below then
    if readsBack above && tie.takesUpper below (value % unit) unit then some above
    else some below
  else if readsBack above then some above
  else none

def stripZeros (ds : List Char) : List Char :=
  (ds.reverse.dropWhile (· == '0')).reverse

def shortest (tie : Tie) (mantissa : Nat) (exponent : Int) (narrow : Bool) : Digits :=
  let lead := leadingExponent mantissa exponent
  let found := (List.range 17).findSome? fun (k : Nat) =>
    let e := lead - (k : Int)
    (onGrid? tie mantissa exponent narrow e).map fun d => (d, e)
  match found with
  | some (d, e) => ⟨stripZeros (digits d), ((digits d).length : Int) + e⟩
  | none => ⟨['0'], 1⟩

/-- How doubles are written: which decimal exponents of the first digit are positional, whether a
whole number keeps a fraction of zero, how other exponents are spelled, and where a tie between two
shortest decimals goes. -/
structure Style where
  positional : Int → Bool
  keepsFraction : Bool
  exponent : Int → String
  tie : Tie

def positionalText (keepsFraction : Bool) (d : Digits) : List Char :=
  let count : Int := d.digits.length
  if d.point ≤ 0 then
    '0' :: '.' :: (List.replicate (-d.point).toNat '0' ++ d.digits)
  else if count ≤ d.point then
    d.digits ++ List.replicate (d.point - count).toNat '0' ++
      (if keepsFraction then ['.', '0'] else [])
  else
    d.digits.take d.point.toNat ++ '.' :: d.digits.drop d.point.toNat

def scientificText (style : Style) (d : Digits) : List Char :=
  d.digits.take 1 ++ (if d.digits.length ≤ 1 then [] else '.' :: d.digits.drop 1) ++
    (style.exponent (d.point - 1)).toList

def signText (negative : Bool) : List Char := if negative then ['-'] else []

def Parts.text (style : Style) : Parts → List Char
  | .nan => ['N', 'a', 'N']
  | .infinite negative => signText negative ++ ['i', 'n', 'f']
  | .finite negative mantissa exponent narrow =>
    let d : Digits :=
      if mantissa == 0 then ⟨['0'], 1⟩ else shortest style.tie mantissa exponent narrow
    signText negative ++
      (if style.positional (d.point - 1) then positionalText style.keepsFraction d
       else scientificText style d)

def ofFloat (style : Style) (x : Float) : String :=
  String.ofList ((Parts.ofBits x.toBits.toNat).text style)

end ScopedQuery.Decimal
