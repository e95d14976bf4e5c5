import ScopedQuery.Filter.Shape
import ScopedQuery.Selection.Item
import ScopedQuery.Sql.Statement

set_option autoImplicit false

namespace ScopedQuery

inductive Request.Target where
  | entity (name : String)
  | table (table : Sql.Table)

structure Request where
  target : Request.Target
  fields : Option Selection
  filters : Option Filter
  orderBy : Option String
  groupBy : Option String
  limit : Option Int64
  offset : Option Int64
  distinct : Bool
  forUpdate : Bool
  /-- Whether locked rows are passed over when rows are locked. -/
  skipLocked : Bool
  wait : Bool
  mode : Sql.Mode

def Request.all (target : Request.Target) : Request where
  target := target
  fields := none
  filters := none
  orderBy := none
  groupBy := none
  limit := none
  offset := none
  distinct := false
  forUpdate := false
  skipLocked := false
  wait := true
  mode := .select

end ScopedQuery
