import ScopedQuery.Clause.Column
import ScopedQuery.Filter.Lineage
import ScopedQuery.Filter.Shape
import ScopedQuery.Selection.Reference

set_option autoImplicit false

namespace ScopedQuery.Filter

/-- The query with the table of a named child entity joined. An entity that is not joined yet has to
be one of child records. -/
def joinChild (c : Catalog) (q : Sql.Query) (entity : String) : Result Sql.Query := do
  if !Clause.isEntityName entity.toList then throw (.invalidEntity entity)
  let table := Sql.Table.ofEntity entity
  if q.isJoined table then pure q
  else if ← c.isChildEntity entity then
    pure (q.leftJoin table (Selection.childRowsOf table q.table.entity none))
  else throw (.unknownFilterFormat (.unrelated entity q.table.entity))

/-- The column that a filter's field means, and the query with the joins that the column needs. Of a
field that is refused there is the error, and the query all the same. -/
def resolve (c : Catalog) (q : Sql.Query) (field : String) (entity : Option String) :
    Result Sql.Column × Sql.Query :=
  let cs := field.toList
  let table := (entity.map Sql.Table.ofEntity).getD q.table
  if Text.isBlankText cs then (.error (.invalidFilterField field), q)
  else if !Clause.hasSpecialChar cs then (.ok (table.column field), q)
  else match Selection.Reference.parse c q.table.entity field with
    | .error fault => (.error fault, q)
    | .ok (some r) => (.ok r.column, r.join q)
    | .ok none =>
      match (Clause.ColumnText.parse? cs).bind (Clause.ColumnText.resolve? table) with
      | some column => (.ok column, q)
      | none => (.error (.invalidFilterField field), q)

def resolveField (c : Catalog) (q : Sql.Query) (field : String) (entity : Option String) :
    Result (Sql.Column × Sql.Query) :=
  let (column, q) := resolve c q field entity
  column.map fun column => (column, q)

/-- The criterion that a column names a relative of a record. The tree is that of the entity which
the column refers to, or of its own entity. No relatives at all are one empty text. -/
def lineageCriterion (c : Catalog) (column : Sql.Column) (value : Operand) (l : Lineage) :
    Result Sql.Criterion := do
  let owner := column.table.entity
  let declared ← c.field? owner column.name
  let entity := (declared.bind Catalog.Field.target).getD owner
  match value.text with
  | .error fault => throw (.unsupportedValue fault)
  | .ok name =>
    let names ← relatives c entity name l
    pure (.member column.term ((if names.isEmpty then [""] else names).map Sql.Term.text)
      l.isNegated)

/-- The criterion of an operator on a column. Comparing with null asks whether the column is
null. -/
def criterionOf (c : Catalog) (op : Operator) (column : Sql.Column) (value : Operand) :
    Result Sql.Criterion :=
  match op with
  | .lineage l => lineageCriterion c column value l
  | op =>
    if value.isNull then .ok (.isNull column.term (op == .compare .ne))
    else op.build column.term value

def applyCondition (c : Catalog) (q : Sql.Query) (f : Condition) : Result Sql.Query := do
  let op ← Operator.parse f.operator
  let entity := f.entity.filter fun e => e != q.table.entity
  let q ← match entity with
    | some e => joinChild c q e
    | none => pure q
  let (column, q) ← resolveField c q f.field entity
  match Operand.ofJson f.value with
  | .error fault => throw (.unsupportedValue fault)
  | .ok value => pure (q.restrict (← criterionOf c op column value))

def applyStep (c : Catalog) (q : Sql.Query) : Step → Result Sql.Query
  | .condition f => applyCondition c q f
  | .criterion r => .ok (q.restrict r)
  | .malformed fault => .error (.unknownFilterFormat fault)

/-- The query with a filter added. The first step that fails is the error. -/
def apply (c : Catalog) (q : Sql.Query) (f : Filter) : Result Sql.Query :=
  f.steps.foldlM (applyStep c) q

end ScopedQuery.Filter
