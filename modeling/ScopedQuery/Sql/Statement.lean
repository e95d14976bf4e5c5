import ScopedQuery.Sql.Term

set_option autoImplicit false

/-!
Whole queries. A query is a value: every operation gives a new one and leaves the old one as it was.
-/

namespace ScopedQuery.Sql

inductive Mode where
  | select | update | insert | delete
  deriving DecidableEq, Repr

namespace Mode

def name : Mode → String
  | select => "select"
  | update => "update"
  | insert => "insert"
  | delete => "delete"

def ofName? : String → Option Mode
  | "select" => some select
  | "update" => some update
  | "insert" => some insert
  | "delete" => some delete
  | _ => none

end Mode

structure Join where
  table : Table
  on : Criterion

inductive Direction where
  | asc | desc
  deriving DecidableEq, Repr

structure Ordering where
  term : Term
  direction : Direction

structure Lock where
  skipLocked : Bool
  nowait : Bool
  deriving DecidableEq, Repr

structure ChildQuery where
  fieldname : String
  fields : List String
  parentEntity : String
  entity : String
  deriving DecidableEq, Repr

structure Query where
  mode : Mode
  dialect : Dialect
  table : Table
  selects : List Term
  joins : List Join
  wheres : List Criterion
  groupBys : List Term
  orderBys : List Ordering
  limit : Option Nat
  offset : Option Nat
  distinct : Bool
  lock : Option Lock
  assignments : List (Column × Term)
  targets : List Column
  rows : List (List Term)
  children : List ChildQuery

namespace Query

def new (mode : Mode) (table : Table) (dialect : Dialect) : Query where
  mode := mode
  dialect := dialect
  table := table
  selects := []
  joins := []
  wheres := []
  groupBys := []
  orderBys := []
  limit := none
  offset := none
  distinct := false
  lock := none
  assignments := []
  targets := []
  rows := []
  children := []

def select (q : Query) (t : Term) : Query := { q with selects := q.selects ++ [t] }

def restrict (q : Query) (c : Criterion) : Query := { q with wheres := q.wheres ++ [c] }

def leftJoin (q : Query) (table : Table) (on : Criterion) : Query :=
  { q with joins := q.joins ++ [⟨table, on⟩] }

def isJoined (q : Query) (table : Table) : Bool := q.joins.any fun j => j.table == table

/-- The query with a table joined; a table that is joined already keeps its first join. -/
def ensureJoin (q : Query) (table : Table) (on : Criterion) : Query :=
  if q.isJoined table then q else q.leftJoin table on

def orderBy (q : Query) (t : Term) (d : Direction) : Query :=
  { q with orderBys := q.orderBys ++ [⟨t, d⟩] }

def groupBy (q : Query) (t : Term) : Query := { q with groupBys := q.groupBys ++ [t] }

def limitTo (q : Query) (n : Nat) : Query := { q with limit := some n }

def skip (q : Query) (n : Nat) : Query := { q with offset := some n }

def distinctRows (q : Query) : Query := { q with distinct := true }

def forUpdate (q : Query) (skipLocked nowait : Bool) : Query :=
  { q with lock := some ⟨skipLocked, nowait⟩ }

def assign (q : Query) (column : String) (value : Term) : Query :=
  { q with assignments := q.assignments ++ [(q.table.column column, value)] }

def into (q : Query) (columns : List String) : Query :=
  { q with targets := q.targets ++ columns.map q.table.column }

def insertRow (q : Query) (row : List Term) : Query := { q with rows := q.rows ++ [row] }

def addChild (q : Query) (c : ChildQuery) : Query := { q with children := q.children ++ [c] }

def hasSelects (q : Query) : Bool := !q.selects.isEmpty

end Query

end ScopedQuery.Sql
