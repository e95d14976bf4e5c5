import ScopedQuery.Access.Columns
import ScopedQuery.Access.Gate
import ScopedQuery.Access.Rows
import ScopedQuery.Filter.Compile
import ScopedQuery.Request.Basic
import ScopedQuery.Selection.Parse
import ScopedQuery.Settings.Basic

set_option autoImplicit false

/-!
How a request becomes a query. The viewer passes the gate before anything of the request is read,
and the rows are confined after everything that the caller asked for. Where a step fails there is no
query.
-/

namespace ScopedQuery.Request

def Target.resolve : Target → Result Sql.Table
  | entity name =>
    if Clause.isEntityName name.toList then .ok (.ofEntity name) else .error (.invalidEntity name)
  | table t => .ok t

def passGate (c : Catalog) (v : Viewer) (r : Request) : Result Sql.Table := do
  let table ← r.target.resolve
  if v.enforced then Access.checkRead c table.entity v
  pure table

def selectItems (c : Catalog) (d : Sql.Dialect) (v : Viewer) (table : Sql.Table)
    (fields : Option Selection) (m : Memo) : Result (List Selection.Item) × Memo :=
  let (items, m) := match fields with
    | some s => s.parse c table d m
    | none => (.ok [], m)
  (items.bind fun items => if v.confinesColumns then Access.narrow c table v items else .ok items,
    m)

/-- The query on a table with what is selected. Only selecting reads the fields. -/
def selectFields (c : Catalog) (d : Sql.Dialect) (v : Viewer) (r : Request) (table : Sql.Table)
    (m : Memo) : Result Sql.Query × Memo :=
  let q := Sql.Query.new r.mode table d
  match r.mode with
  | .select =>
    let (items, m) := selectItems c d v table r.fields m
    (items.map (Selection.selectAll q), m)
  | .update | .insert | .delete => (.ok q, m)

def orderRows (orderBy : Option String) (q : Sql.Query) : Result Sql.Query :=
  match orderBy with
  | none => .ok q
  | some text => do
    let items ← Clause.parseOrderBy text
    items.foldlM (fun q o =>
      match o.item.term? q.table with
      | some t => .ok (q.orderBy t o.direction)
      | none => .error (.invalidOrderBy o.item.text)) q

def groupRows (groupBy : Option String) (q : Sql.Query) : Result Sql.Query :=
  match groupBy with
  | none => .ok q
  | some text => do
    let items ← Clause.parseGroupBy text
    items.foldlM (fun q item =>
      match item.term? q.table with
      | some t => .ok (q.groupBy t)
      | none => .error (.invalidGroupBy item.text)) q

/-- Applies a number of rows, unless it is zero; below zero it is an error. -/
def withCount (count : Option Int64) (fault : Int64 → QueryError)
    (set : Sql.Query → Nat → Sql.Query) (q : Sql.Query) : Result Sql.Query :=
  match count with
  | none => .ok q
  | some n =>
    if n < 0 then .error (fault n)
    else if n == 0 then .ok q
    else .ok (set q n.toInt.toNat)

def withFlags (r : Request) (q : Sql.Query) : Sql.Query :=
  let q := if r.distinct then q.distinctRows else q
  if r.forUpdate then q.forUpdate r.skipLocked (!r.wait) else q

def finish (c : Catalog) (strict : Bool) (v : Viewer) (r : Request) (q : Sql.Query) :
    Result Sql.Query := do
  let q ← match r.filters with
    | some f => Filter.apply c q f
    | none => pure q
  let q ← orderRows r.orderBy q
  let q ← withCount r.limit .invalidLimit .limitTo q
  let q ← withCount r.offset .invalidOffset .skip q
  let q ← groupRows r.groupBy (withFlags r q)
  if v.enforced then Access.confineRows c v strict q else pure q

def build (c : Catalog) (s : Settings) (v : Viewer) (r : Request) (m : Memo) :
    Result Sql.Query × Memo :=
  match passGate c v r with
  | .error e => (.error e, m)
  | .ok table =>
    let (selected, m) := selectFields c s.dialect v r table m
    (selected.bind (finish c s.strictUserPermissions v r), m)

end ScopedQuery.Request
