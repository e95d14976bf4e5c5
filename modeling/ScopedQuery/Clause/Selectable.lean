import ScopedQuery.Clause.Column
import ScopedQuery.Clause.Label

set_option autoImplicit false

namespace ScopedQuery.Clause

def isLabelledColumn (cs : List Char) : Bool :=
  match ColumnText.read cs with
  | some (_, rest) => rest.isEmpty || (label? rest).isSome
  | none => false

/-- Whether a text runs on one line up to a closing parenthesis that ends it, or that only a label
follows. -/
def closesCall : List Char → Bool
  | [] => false
  | c :: r =>
    (c == ')' && (r.isEmpty || (label? r).isSome)) || (c != '\n' && closesCall r)

def isCallShape (cs : List Char) : Bool :=
  match cs.takeWhile Text.isWordChar, cs.dropWhile Text.isWordChar with
  | _ :: _, '(' :: r => closesCall r
  | _, _ => false

def isSelectable (cs : List Char) : Bool :=
  cs == ['*'] || Text.isDigits cs || isLabelledColumn cs || isCallShape cs

end ScopedQuery.Clause
