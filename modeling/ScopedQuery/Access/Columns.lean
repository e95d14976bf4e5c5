import ScopedQuery.Access.Viewer
import ScopedQuery.Selection.Item

set_option autoImplicit false

namespace ScopedQuery.Access

open Selection

def visibleColumns (c : Catalog) (user entity : String) : Result (List String) :=
  c.permittedFields entity user (c.columnCapability entity user) true

def seesColumn (c : Catalog) (user entity fieldname : String) : Result Bool :=
  (visibleColumns c user entity).map fun fields => fields.contains fieldname

/-- Whether every one of some columns may be seen; the first that may not decides. -/
def seesAll (c : Catalog) (user : String) : List Sql.Column → Result Bool
  | [] => .ok true
  | column :: rest => do
    if ← seesColumn c user column.table.entity column.name then seesAll c user rest else pure false

/-- A child query with all visible columns in place of a star, and without the columns that are not
visible. -/
def narrowChild (visible : List String) (q : Sql.ChildQuery) : Sql.ChildQuery :=
  { q with
    fields := (q.fields.flatMap fun f => if f == "*" then visible else [f]).filter
      visible.contains }

/-- What remains of an item. A star becomes the visible columns of the queried table, and a child
query without columns goes. -/
def narrowItem (c : Catalog) (user : String) (own : List String) : Item → Result (List Item)
  | .star t => .ok (own.map fun name => .plain (t.column name))
  | .plain column => keepIf (seesColumn c user column.table.entity column.name) (.plain column)
  | .call f => keepIf (seesAll c user f.columns) (.call f)
  | .reference r =>
    match r.route with
    | .link field => keepIf (.ok (own.contains field)) (.reference r)
    | .rows _ => keepIf (seesColumn c user r.entity r.fieldname) (.reference r)
  | .child q => do
    let narrowed := narrowChild (← visibleColumns c user q.entity) q
    pure (if narrowed.fields.isEmpty then [] else [.child narrowed])
  | .position n => .ok [.position n]
  | .term t => .ok [.term t]
where
  keepIf (seen : Result Bool) (item : Item) : Result (List Item) :=
    seen.map fun s => if s then [item] else []

def narrow (c : Catalog) (table : Sql.Table) (v : Viewer) (items : List Item) :
    Result (List Item) := do
  let own ← visibleColumns c v.user table.entity
  let kept ← items.mapM (narrowItem c v.user own)
  pure kept.flatten

end ScopedQuery.Access
