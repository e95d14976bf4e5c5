import ScopedQuery.Clause.Name
import ScopedQuery.Sql.Term

set_option autoImplicit false

namespace ScopedQuery.Clause

structure ColumnText where
  table : Option String
  column : String
  deriving DecidableEq, Repr

namespace ColumnText

/-- The reference at the head of a text, and what follows it. A quoted table may hold blanks and
hyphens, a column may not. -/
def read (cs : List Char) : Option (ColumnText × List Char) :=
  match readName isEntityChar cs with
  | some (table, '.' :: rest) =>
    (readName Text.isWordChar rest).map fun (column, rest) =>
      (⟨some (String.ofList table), String.ofList column⟩, rest)
  | _ =>
    (readName Text.isWordChar cs).map fun (column, rest) => (⟨none, String.ofList column⟩, rest)

def parse? (cs : List Char) : Option ColumnText :=
  match read cs with
  | some (c, []) => some c
  | _ => none

def physicalTable? (c : ColumnText) : Option String :=
  c.table.filter fun t => (Sql.Table.afterPrefix? t).isSome

/-- The column meant. A bare column belongs to the table at hand; a qualifier has to name a physical
table. -/
def resolve? (own : Sql.Table) (c : ColumnText) : Option Sql.Column :=
  match c.table with
  | none => some (own.column c.column)
  | some _ => c.physicalTable?.map fun t => Sql.Table.column ⟨t⟩ c.column

def text (c : ColumnText) : String :=
  match c.table with
  | some t => t ++ "." ++ c.column
  | none => c.column

end ColumnText

end ScopedQuery.Clause
