import ScopedQuery.Decimal.Reading
import ScopedQuery.Json.Basic
import ScopedQuery.Sql.Render

set_option autoImplicit false

namespace ScopedQuery.Sql

def textJson? (s : Option String) : Json := (s.map Json.str).getD .null

def natJson (n : Nat) : Json := .str (Decimal.ofNat n)

def Literal.toJson : Literal → Json
  | .null => .obj [("null", .bool true)]
  | .bool b => .obj [("bool", .bool b)]
  | .int n => .obj [("int", .str (Decimal.ofInt n.toInt))]
  | .float x => .obj [("float", .str (Decimal.ofFloat floatStyle x))]
  | .text s => .obj [("str", .str s)]

def Column.toJson (c : Column) : Json :=
  .obj [("t", .str "field"), ("table", .str c.table.name), ("name", .str c.name),
    ("alias", textJson? c.label)]

mutual

def Term.toJson : Term → Json
  | .column c => c.toJson
  | .star table => .obj [("t", .str "star"), ("table", textJson? (table.map Table.name))]
  | .literal v => .obj [("t", .str "lit"), ("v", v.toJson)]
  | .tuple items => .obj [("t", .str "tuple"), ("items", .arr (Term.toJsonOfList items))]
  | .position n => .obj [("t", .str "pos"), ("n", natJson n)]
  | .call function args label =>
    .obj [("t", .str "call"), ("name", .str function), ("args", .arr (Term.toJsonOfList args)),
      ("alias", textJson? label)]
  | .binary left op right =>
    .obj [("t", .str "bin"), ("op", .str op.token), ("l", left.toJson), ("r", right.toJson)]
  | .datePart part => .obj [("t", .str "datepart"), ("part", .str part.keyword)]
  | .condition c => .obj [("t", .str "crit"), ("c", c.toJson)]

def Term.toJsonOfList : List Term → List Json
  | [] => []
  | t :: ts => t.toJson :: Term.toJsonOfList ts

def Criterion.toJson : Criterion → Json
  | .compare left op right =>
    .obj [("c", .str "cmp"), ("l", left.toJson), ("op", .str op.token), ("r", right.toJson)]
  | .member term values negated =>
    .obj [("c", .str "in"), ("term", term.toJson), ("values", .arr (Term.toJsonOfList values)),
      ("negated", .bool negated)]
  | .isNull term negated =>
    .obj [("c", .str "isnull"), ("term", term.toJson), ("negated", .bool negated)]
  | .like term pattern negated =>
    .obj [("c", .str "like"), ("term", term.toJson), ("pattern", pattern.toJson),
      ("negated", .bool negated)]
  | .regex term pattern =>
    .obj [("c", .str "regex"), ("term", term.toJson), ("pattern", pattern.toJson)]
  | .between term low high =>
    .obj [("c", .str "between"), ("term", term.toJson), ("low", low.toJson),
      ("high", high.toJson)]
  | .conj items => .obj [("c", .str "all"), ("items", .arr (Criterion.toJsonOfList items))]
  | .disj items => .obj [("c", .str "any"), ("items", .arr (Criterion.toJsonOfList items))]
  | .neg inner => .obj [("c", .str "not"), ("inner", inner.toJson)]
  | .raw sql => .obj [("c", .str "raw"), ("sql", .str sql)]

def Criterion.toJsonOfList : List Criterion → List Json
  | [] => []
  | c :: cs => c.toJson :: Criterion.toJsonOfList cs

end

def Join.toJson (j : Join) : Json :=
  .obj [("table", .str j.table.name), ("on", j.on.toJson)]

def Direction.name : Direction → String
  | .asc => "asc"
  | .desc => "desc"

def Ordering.toJson (o : Ordering) : Json :=
  .obj [("term", o.term.toJson), ("order", .str o.direction.name)]

def Lock.toJson (l : Lock) : Json :=
  .obj [("skip_locked", .bool l.skipLocked), ("nowait", .bool l.nowait)]

/-- What a query selects and how; what an update or an insert writes is left out. -/
def Query.toJson (q : Query) : Json :=
  .obj [("mode", .str q.mode.name), ("dialect", .str q.dialect.name), ("table", .str q.table.name),
    ("selects", .arr (Term.toJsonOfList q.selects)), ("joins", .arr (q.joins.map Join.toJson)),
    ("wheres", .arr (Criterion.toJsonOfList q.wheres)),
    ("group_bys", .arr (Term.toJsonOfList q.groupBys)),
    ("order_bys", .arr (q.orderBys.map Ordering.toJson)),
    ("limit", (q.limit.map natJson).getD .null), ("offset", (q.offset.map natJson).getD .null),
    ("distinct", .bool q.distinct), ("lock", (q.lock.map Lock.toJson).getD .null)]

def floatOfText? : String → Option Float
  | "NaN" => some (0.0 / 0.0)
  | "inf" => some (1.0 / 0.0)
  | "-inf" => some (-1.0 / 0.0)
  | s => Decimal.real? s.toList

def Literal.ofJson? : Json → Option Literal
  | .obj [("null", .bool true)] => some .null
  | .obj [("bool", .bool b)] => some (.bool b)
  | .obj [("int", .str s)] => (Decimal.integer? s.toList).bind fun n => (Decimal.signed? n).map .int
  | .obj [("float", .str s)] => (floatOfText? s).map .float
  | .obj [("str", .str s)] => some (.text s)
  | _ => none

structure Reading where
  json : Json
  term : Option Term
  criterion : Option Criterion
  items : List Reading

namespace Reading

def string? (r : Reading) : Option String :=
  match r.json with
  | .str s => some s
  | _ => none

def isTrue (r : Reading) : Bool :=
  match r.json with
  | .bool b => b
  | _ => false

end Reading

abbrev Readings := Assoc Reading

namespace Readings

variable (m : Readings)

def string? (name : String) : Option String := (m.find? name).bind Reading.string?

def term? (name : String) : Option Term := (m.find? name).bind Reading.term

def criterion? (name : String) : Option Criterion := (m.find? name).bind Reading.criterion

def terms? (name : String) : Option (List Term) :=
  (m.find? name).bind fun r => r.items.mapM Reading.term

def criteria? (name : String) : Option (List Criterion) :=
  (m.find? name).bind fun r => r.items.mapM Reading.criterion

def isTrue (name : String) : Bool := (m.find? name).any Reading.isTrue

def operator? (name : String) : Option BinaryOp := (m.string? name).bind BinaryOp.ofToken?

def toTerm? : Option Term := do
  match ← m.string? "t" with
  | "field" => pure (.column ⟨⟨← m.string? "table"⟩, ← m.string? "name", m.string? "alias"⟩)
  | "star" => pure (.star ((m.string? "table").map Table.mk))
  | "lit" => pure (.literal (← Literal.ofJson? (← m.find? "v").json))
  | "tuple" => pure (.tuple (← m.terms? "items"))
  | "pos" =>
    let text ← m.string? "n"
    if Text.isDigits text.toList then pure (.position (Decimal.natOfDigits text.toList)) else none
  | "call" => pure (.call (← m.string? "name") (← m.terms? "args") (m.string? "alias"))
  | "bin" => pure (.binary (← m.term? "l") (← m.operator? "op") (← m.term? "r"))
  | "datepart" => pure (.datePart (← DatePart.ofKeyword? (← m.string? "part")))
  | "crit" => pure (.condition (← m.criterion? "c"))
  | _ => none

def toCriterion? : Option Criterion := do
  match ← m.string? "c" with
  | "cmp" => pure (.compare (← m.term? "l") (← m.operator? "op") (← m.term? "r"))
  | "in" => pure (.member (← m.term? "term") (← m.terms? "values") (m.isTrue "negated"))
  | "isnull" => pure (.isNull (← m.term? "term") (m.isTrue "negated"))
  | "like" => pure (.like (← m.term? "term") (← m.term? "pattern") (m.isTrue "negated"))
  | "regex" => pure (.regex (← m.term? "term") (← m.term? "pattern"))
  | "between" => pure (.between (← m.term? "term") (← m.term? "low") (← m.term? "high"))
  | "all" => pure (.conj (← m.criteria? "items"))
  | "any" => pure (.disj (← m.criteria? "items"))
  | "not" => pure (.neg (← m.criterion? "inner"))
  | "raw" => pure (.raw (← m.string? "sql"))
  | _ => none

end Readings

mutual

def Reading.ofJson : Json → Reading
  | .obj members =>
    let readings := Readings.ofMembers members
    ⟨.obj members, readings.toTerm?, readings.toCriterion?, []⟩
  | .arr items => ⟨.arr items, none, none, Reading.ofList items⟩
  | j => ⟨j, none, none, []⟩

def Reading.ofList : List Json → List Reading
  | [] => []
  | j :: js => Reading.ofJson j :: Reading.ofList js

def Readings.ofMembers : List (String × Json) → Readings
  | [] => []
  | (name, j) :: rest => (name, Reading.ofJson j) :: Readings.ofMembers rest

end

def Term.ofJson? (j : Json) : Option Term := (Reading.ofJson j).term

def Criterion.ofJson? (j : Json) : Option Criterion := (Reading.ofJson j).criterion

end ScopedQuery.Sql
