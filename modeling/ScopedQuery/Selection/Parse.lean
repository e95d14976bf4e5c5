import ScopedQuery.Function.Argument
import ScopedQuery.Memo.Sanitize
import ScopedQuery.Selection.Item

set_option autoImplicit false

namespace ScopedQuery.Selection

/-- The columns to fetch from a child collection; nothing where the field is no collection or its
rows have no entity. -/
def childQuery? (c : Catalog) (owner fieldname : String) (fields : List String) :
    Result (Option Sql.ChildQuery) := do
  match ← c.field? owner fieldname with
  | some f =>
    if f.type.isCollection then
      pure (f.target.map fun entity => ⟨fieldname, fields, owner, entity⟩)
    else pure none
  | none => pure none

def plainColumn? (own : Sql.Table) (cs : List Char) : Option Sql.Column := do
  let (expr, label) := Clause.splitLabel cs
  let written ← Clause.ColumnText.parse? expr
  let column ← written.resolve? own
  pure { column with label := label.map String.ofList }

def parseText (c : Catalog) (own : Sql.Table) (d : Sql.Dialect) (text : String) : Result Item :=
  let cs := text.toList
  if cs == ['*'] then .ok (.star own)
  else if Text.isDigits cs then
    match Decimal.unsignedOfDigits? cs with
    | some n => .ok (.position n)
    | none => .error (.unparsableField text)
  else if Function.mentionsCall cs then (Function.parseCall own d text).map .call
  else do
    match ← Reference.parse c own.entity text with
    | some r => pure (.reference r)
    | none =>
      match plainColumn? own cs with
      | some column => pure (.plain column)
      | none => throw (.unparsableField text)

/-- The item that an entry denotes, and the memory after its text was sanitized. A child entry that
names no collection denotes nothing. -/
def parseEntry (c : Catalog) (own : Sql.Table) (d : Sql.Dialect) (m : Memo) :
    Entry → Result (Option Item) × Memo
  | .term t => (.ok (some (.term t)), m)
  | .child fieldname fields =>
    ((childQuery? c own.entity fieldname fields).map fun q => q.map .child, m)
  | .text written =>
    let (sanitized, m) := m.sanitize d written
    (sanitized.bind fun s => (parseText c own d s).map some, m)

/-- The items of a list of entries. The first entry that is refused ends the reading. -/
def parseEntries (c : Catalog) (own : Sql.Table) (d : Sql.Dialect) :
    List Entry → Memo → Result (List Item) × Memo
  | [], m => (.ok [], m)
  | e :: es, m =>
    match parseEntry c own d m e with
    | (.error error, m) => (.error error, m)
    | (.ok item, m) =>
      let (items, m) := parseEntries c own d es m
      (items.map (item.toList ++ ·), m)

def parse (c : Catalog) (own : Sql.Table) (d : Sql.Dialect) (s : Selection) (m : Memo) :
    Result (List Item) × Memo :=
  parseEntries c own d s.toEntries m

end ScopedQuery.Selection
