import ScopedQuery.Clause.Column
import ScopedQuery.Error
import ScopedQuery.Text.Nesting

set_option autoImplicit false

namespace ScopedQuery.Clause

inductive Item where
  | column (text : ColumnText)
  | position (place : Nat)
  deriving DecidableEq, Repr

namespace Item

/-- A run of digits is a position, as long as it fits 64 bits. -/
def parse? (cs : List Char) : Option Item :=
  if Text.isDigits cs then (Decimal.unsignedOfDigits? cs).map .position
  else (ColumnText.parse? cs).map .column

def text : Item → String
  | column c => c.text
  | position n => Decimal.ofNat n

def term? (own : Sql.Table) : Item → Option Sql.Term
  | column c => (c.resolve? own).map .column
  | position n => some (.position n)

end Item

/-- The entries of a comma-separated list, without blanks around them and without empty ones. -/
def entries (cs : List Char) : List (List Char) :=
  ((Text.parts ',' cs).map Text.trim).filter fun e => !e.isEmpty

def parseGroupBy (text : String) : Result (List Item) :=
  (entries text.toList).mapM fun e =>
    match Item.parse? e with
    | some item => .ok item
    | none => .error (.invalidGroupBy (String.ofList e))

structure OrderItem where
  item : Item
  direction : Sql.Direction
  deriving DecidableEq, Repr

def keepDefaultOrdering : String := "KEEP_DEFAULT_ORDERING"

def direction? (word : List Char) : Option Sql.Direction :=
  if Text.equalAscii word "asc".toList then some .asc
  else if Text.equalAscii word "desc".toList then some .desc
  else none

/-- One entry of an ordering: an item, and perhaps a direction; without one it is descending. -/
def parseOrderItem (entry : List Char) : Result OrderItem :=
  let item (word : List Char) : Result Item :=
    match Item.parse? word with
    | some item => .ok item
    | none => .error (.invalidOrderBy (String.ofList word))
  match Text.words entry with
  | [word] => do pure ⟨← item word, .desc⟩
  | [word, direction] => do
    let item ← item word
    match direction? direction with
    | some d => pure ⟨item, d⟩
    | none => .error (.invalidOrderDirection (String.ofList direction))
  | _ => .error (.invalidOrderBy (String.ofList entry))

def parseOrderBy (text : String) : Result (List OrderItem) :=
  if text == keepDefaultOrdering then .ok []
  else (entries text.toList).mapM parseOrderItem

end ScopedQuery.Clause
