import ScopedQuery.Catalog.Basic
import ScopedQuery.Filter.Operator

set_option autoImplicit false

namespace ScopedQuery.Filter

def Lineage.range (l : Lineage) (b : Tree.Bounds) : Tree.Range :=
  if l.isDownward then .inside b else .enclosing b

/-- The names of a record's relatives: descendants from left to right, ancestors from the nearest
on, and the record itself last where it is included. A record outside the tree has none. -/
def relatives (c : Catalog) (entity name : String) (l : Lineage) : Result (List String) := do
  match ← c.bounds? entity name with
  | none => pure []
  | some b =>
    let names ← c.namesInRange entity (l.range b)
    pure (if l == .descendantsInclusive then names ++ [name] else names)

def boundsQuery (entity name : String) (d : Sql.Dialect) : Sql.Query :=
  let table := Sql.Table.ofEntity entity
  (((Sql.Query.new .select table d).select (table.column "lft").term).select
    (table.column "rgt").term).restrict ((table.column "name").equals (.text name))

def rangeQuery (entity : String) (range : Tree.Range) (d : Sql.Dialect) : Sql.Query :=
  let table := Sql.Table.ofEntity entity
  let lft := (table.column "lft").term
  let rgt := (table.column "rgt").term
  let named := (Sql.Query.new .select table d).select (table.column "name").term
  match range with
  | .inside b =>
    ((named.restrict (.compare lft .gt (.literal (.int b.lft)))).restrict
      (.compare rgt .lt (.literal (.int b.rgt)))).orderBy lft .asc
  | .enclosing b =>
    ((named.restrict (.compare lft .lt (.literal (.int b.lft)))).restrict
      (.compare rgt .gt (.literal (.int b.rgt)))).orderBy lft .desc

end ScopedQuery.Filter
