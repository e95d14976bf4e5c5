import ScopedQuery.Json.Printer
import ScopedQuery.Sql.Render
import ScopedQuery.Text.Quoted

set_option autoImplicit false

namespace ScopedQuery.Filter

inductive Operand where
  | null
  | scalar (value : Sql.Literal)
  | list (values : List Sql.Literal)

inductive OperandFault where
  /-- A null among the values of a list, which no column ever equals. -/
  | nullInList (list : Json)
  /-- A value that is neither plain nor a reference to a record. -/
  | shape (value : Json)
  | notTwoValues (found : Operand)
  | listForText (values : List Sql.Literal)

/-- The plain value of a JSON value. Truth values are one and zero, a whole number beyond 64 bits
with a sign is a double, and a record is known by its name. -/
def literalOf : Json → Except OperandFault Sql.Literal
  | .null => .ok .null
  | .bool b => .ok (.int (if b then 1 else 0))
  | .int n => .ok (number n)
  | .float x => .ok (.float x)
  | .str s => .ok (.text s)
  | .obj members =>
    match Assoc.find? members "name" with
    | some (.str s) => .ok (.text s)
    | some (.int n) => .ok (number n)
    | some (.float x) => .ok (.float x)
    | _ => .error (.shape (.obj members))
  | .arr items => .error (.shape (.arr items))
where
  number (n : Int) : Sql.Literal :=
    match Decimal.signed? n with
    | some i => .int i
    | none => .float (Float.ofInt n)

namespace Operand

/-- The value to compare with. An empty list holds one empty text, so that a list is never empty. -/
def ofJson : Json → Except OperandFault Operand
  | .null => .ok .null
  | .arr [] => .ok (.list [.text ""])
  | .arr items => do
    let values ← items.mapM fun item =>
      if item.isNull then .error (.nullInList (.arr items)) else literalOf item
    pure (.list values)
  | j => (literalOf j).map .scalar

def isNull : Operand → Bool
  | null => true
  | _ => false

def term : Operand → Sql.Term
  | null => .literal .null
  | scalar v => .literal v
  | list vs => .tuple (vs.map .literal)

def text : Operand → Except OperandFault String
  | null => .ok ""
  | scalar v => .ok v.recordText
  | list vs => .error (.listForText vs)

end Operand

/-- Doubles in messages always have a point or an exponent: the exponent is used below `1e-4` and
from `1e16` on. -/
def shownFloat : Decimal.Style where
  positional e := -4 ≤ e && e < 16
  keepsFraction := true
  exponent e := "e" ++ Decimal.ofInt e
  tie := .away

def shownLiteral : Sql.Literal → String
  | .null => "Null"
  | .bool b => "Bool(" ++ (if b then "true" else "false") ++ ")"
  | .int n => "Int(" ++ Decimal.ofInt n.toInt ++ ")"
  | .float x => "Float(" ++ Decimal.ofFloat shownFloat x ++ ")"
  | .text s => "Str(" ++ Text.shown s ++ ")"

def shownLiterals (vs : List Sql.Literal) : String :=
  "[" ++ ", ".intercalate (vs.map shownLiteral) ++ "]"

def Operand.shown : Operand → String
  | null => "Null"
  | scalar v => "Scalar(" ++ shownLiteral v ++ ")"
  | list vs => "List(" ++ shownLiterals vs ++ ")"

namespace OperandFault

def message : OperandFault → String
  | nullInList list => "null inside list " ++ list.compact ++ "; filter with IS NULL instead"
  | shape value => value.compact
  | notTwoValues found => "between expects two values, got " ++ found.shown
  | listForText values => shownLiterals values

end OperandFault

end ScopedQuery.Filter
