import ScopedQuery.Sql.Dialect

set_option autoImplicit false

namespace ScopedQuery.Sql

structure Table where
  name : String
  deriving DecidableEq, Repr

namespace Table

def namePrefix : String := "tab"

def ofEntity (entity : String) : Table := ⟨namePrefix ++ entity⟩

def afterPrefix? (name : String) : Option String :=
  (Text.after? namePrefix.toList name.toList).map String.ofList

/-- The entity whose records a table holds; a name without the prefix stands for itself. -/
def entity (t : Table) : String := (afterPrefix? t.name).getD t.name

end Table

structure Column where
  table : Table
  name : String
  label : Option String
  deriving DecidableEq, Repr

def Table.column (t : Table) (name : String) : Column := ⟨t, name, none⟩

inductive Literal where
  | null
  | bool (value : Bool)
  | int (value : Int64)
  | float (value : Float)
  | text (value : String)

inductive BinaryOp where
  | add | sub | mul | div
  | eq | ne | lt | gt | le | ge
  deriving DecidableEq, Repr

namespace BinaryOp

def ofToken? : String → Option BinaryOp
  | "+" => some add
  | "-" => some sub
  | "*" => some mul
  | "/" => some div
  | "=" => some eq
  | "!=" | "<>" => some ne
  | "<" => some lt
  | ">" => some gt
  | "<=" | "=<" => some le
  | ">=" | "=>" => some ge
  | _ => none

def token : BinaryOp → String
  | add => "+"
  | sub => "-"
  | mul => "*"
  | div => "/"
  | eq => "="
  | ne => "<>"
  | lt => "<"
  | gt => ">"
  | le => "<="
  | ge => ">="

theorem ofToken?_token (op : BinaryOp) : ofToken? op.token = some op := by
  cases op <;> rfl

end BinaryOp

inductive DatePart where
  | year | quarter | month | week | day | hour | minute | second
  deriving DecidableEq, Repr

namespace DatePart

def keyword : DatePart → String
  | year => "YEAR"
  | quarter => "QUARTER"
  | month => "MONTH"
  | week => "WEEK"
  | day => "DAY"
  | hour => "HOUR"
  | minute => "MINUTE"
  | second => "SECOND"

def all : List DatePart := [year, quarter, month, week, day, hour, minute, second]

/-- The unit with the given keyword, in any case of letters. -/
def ofKeyword? (text : String) : Option DatePart :=
  all.find? fun p => Text.equalAscii p.keyword.toList text.toList

/-- The time format that prints the unit; a quarter is worked out from its month. -/
def timeFormat : DatePart → String
  | year => "%Y"
  | quarter | month => "%m"
  | week => "%W"
  | day => "%d"
  | hour => "%H"
  | minute => "%M"
  | second => "%S"

end DatePart

mutual

inductive Term where
  | column (column : Column)
  | star (table : Option Table)
  | literal (value : Literal)
  | tuple (items : List Term)
  | position (place : Nat)
  | call (function : String) (args : List Term) (label : Option String)
  | binary (left : Term) (op : BinaryOp) (right : Term)
  | datePart (part : DatePart)
  | condition (criterion : Criterion)

inductive Criterion where
  | compare (left : Term) (op : BinaryOp) (right : Term)
  | member (term : Term) (values : List Term) (negated : Bool)
  | isNull (term : Term) (negated : Bool)
  | like (term pattern : Term) (negated : Bool)
  | regex (term pattern : Term)
  | between (term low high : Term)
  | conj (items : List Criterion)
  | disj (items : List Criterion)
  | neg (inner : Criterion)
  | raw (sql : String)

end

structure FunctionCall where
  function : String
  args : List Term
  label : Option String

def FunctionCall.term (c : FunctionCall) : Term := .call c.function c.args c.label

mutual

/-- The columns a term refers to, from left to right. Conditions used as terms are not searched. -/
def Term.columns : Term → List Column
  | .column c => [c]
  | .tuple items => Term.columnsOfList items
  | .call _ args _ => Term.columnsOfList args
  | .binary left _ right => left.columns ++ right.columns
  | .star _ | .literal _ | .position _ | .datePart _ | .condition _ => []

def Term.columnsOfList : List Term → List Column
  | [] => []
  | t :: ts => t.columns ++ Term.columnsOfList ts

end

def FunctionCall.columns (c : FunctionCall) : List Column := Term.columnsOfList c.args

def Literal.term (v : Literal) : Term := .literal v

def Column.term (c : Column) : Term := .column c

def Term.text (s : String) : Term := .literal (.text s)

def Column.equals (c : Column) (t : Term) : Criterion := .compare c.term .eq t

def Column.oneOf (c : Column) (values : List String) : Criterion :=
  .member c.term (values.map Term.text) false

def Column.isNull (c : Column) : Criterion := .isNull c.term false

namespace Criterion

def all : List Criterion → Criterion
  | [c] => c
  | cs => .conj cs

/-- One more condition joined by AND, at the end of a conjunction that is already there. -/
def and (c other : Criterion) : Criterion :=
  match c with
  | .conj items => .conj (items ++ [other])
  | c => .conj [c, other]

/-- One more condition joined by OR, at the end of a disjunction that is already there. -/
def or (c other : Criterion) : Criterion :=
  match c with
  | .disj items => .disj (items ++ [other])
  | c => .disj [c, other]

end Criterion

end ScopedQuery.Sql
