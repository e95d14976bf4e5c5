import ScopedQuery.Clause.Order
import ScopedQuery.Selection.Reference

set_option autoImplicit false

namespace ScopedQuery

inductive Selection.Entry where
  | text (text : String)
  | term (term : Sql.Term)
  | child (fieldname : String) (fields : List String)

inductive Selection where
  | text (text : String)
  | entries (entries : List Selection.Entry)

namespace Selection

inductive Item where
  | plain (column : Sql.Column)
  | star (table : Sql.Table)
  | position (place : Nat)
  | call (call : Sql.FunctionCall)
  | reference (reference : Reference)
  | child (child : Sql.ChildQuery)
  | term (term : Sql.Term)

def Item.select (q : Sql.Query) : Item → Sql.Query
  | plain c => q.select c.term
  | star t => q.select (.star (some t))
  | position n => q.select (.position n)
  | call f => q.select f.term
  | reference r => r.select q
  | child c => q.addChild c
  | term t => q.select t

/-- The query with all items selected. Where nothing is, the records' names are. -/
def selectAll (q : Sql.Query) (items : List Item) : Sql.Query :=
  let q := items.foldl Item.select q
  if q.hasSelects then q else q.select (q.table.column "name").term

/-- The entries of a selection; in a text they are divided by commas outside of calls and quotes. -/
def toEntries : Selection → List Entry
  | text s => (Clause.entries s.toList).map fun e => .text (String.ofList e)
  | entries es => es

end Selection

end ScopedQuery
