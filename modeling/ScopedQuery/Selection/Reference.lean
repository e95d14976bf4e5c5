import ScopedQuery.Catalog.Basic
import ScopedQuery.Clause.Label
import ScopedQuery.Clause.Name

set_option autoImplicit false

namespace ScopedQuery.Selection

inductive Route where
  | link (field : String)
  /-- As one of the owner's child rows, of one collection if it is named. -/
  | rows (field : Option String)
  deriving DecidableEq, Repr

structure Reference where
  entity : String
  fieldname : String
  owner : String
  route : Route
  label : Option String
  deriving DecidableEq, Repr

def childRowsOf (child : Sql.Table) (owner : String) (field : Option String) : Sql.Criterion :=
  let ownerName := (Sql.Table.ofEntity owner).column "name"
  let ofOwner := ((child.column "parent").equals ownerName.term).and
    ((child.column "parenttype").equals (.text owner))
  match field with
  | some f => ofOwner.and ((child.column "parentfield").equals (.text f))
  | none => ofOwner

/-- The table and the column of a text that quotes both by the same mark. -/
def quotedPair? (cs : List Char) : Option (String × String) :=
  match cs with
  | [] => none
  | mark :: _ =>
    if Clause.isNameQuote mark then
      match Clause.readName Clause.isEntityChar cs with
      | some (table, '.' :: c :: r) =>
        if c == mark then
          match Clause.readName Text.isWordChar (c :: r) with
          | some (column, []) => some (String.ofList table, String.ofList column)
          | _ => none
        else none
      | _ => none
    else none

def dottedPair? (cs : List Char) : Option (String × String) :=
  match cs.takeWhile Text.isWordChar, cs.dropWhile Text.isWordChar with
  | _ :: _, '.' :: r =>
    if !r.isEmpty && r.all Text.isWordChar then
      some (String.ofList (cs.takeWhile Text.isWordChar), String.ofList r)
    else none
  | _, _ => none

def namesTable (cs : List Char) : Bool :=
  match cs with
  | mark :: r => Clause.isNameQuote mark && (Text.after? Sql.Table.namePrefix.toList r).isSome
  | [] => false

/-- The entity of a physical table other than the owner's, with the column. -/
def foreignColumn? (owner : String) (cs : List Char) : Option (String × String) := do
  let (table, column) ← quotedPair? cs
  let entity ← Sql.Table.afterPrefix? table
  if entity.isEmpty || entity == owner then none else pure (entity, column)

namespace Reference

/-- The reference to a column of the records behind a field; nothing for a field that is neither a
link nor a collection, or that has no target. -/
def throughField? (owner : String) (f : Catalog.Field) (fieldname : String)
    (label : Option String) : Option Reference :=
  match f.target with
  | none => none
  | some entity =>
    if f.type == .link then some ⟨entity, fieldname, owner, .link f.fieldname, label⟩
    else if f.type.isCollection then
      some ⟨entity, fieldname, owner, .rows (some f.fieldname), label⟩
    else none

def parse (c : Catalog) (owner : String) (text : String) : Result (Option Reference) :=
  let cs := text.toList
  if !cs.contains '.' then .ok none
  else
    let (expr, labelChars) := Clause.splitLabel cs
    let label := labelChars.map String.ofList
    if namesTable expr then
      .ok ((foreignColumn? owner expr).map fun (entity, column) =>
        ⟨entity, column, owner, .rows none, label⟩)
    else
      match dottedPair? expr with
      | none => .ok none
      | some (field, column) => do
        match ← c.field? owner field with
        | some f => pure (throughField? owner f column label)
        | none => pure none

def table (r : Reference) : Sql.Table := .ofEntity r.entity

def column (r : Reference) : Sql.Column := r.table.column r.fieldname

def joinCriterion (r : Reference) : Sql.Criterion :=
  match r.route with
  | .link field =>
    (r.table.column "name").equals ((Sql.Table.ofEntity r.owner).column field).term
  | .rows field => childRowsOf r.table r.owner field

def join (r : Reference) (q : Sql.Query) : Sql.Query := q.ensureJoin r.table r.joinCriterion

def select (r : Reference) (q : Sql.Query) : Sql.Query :=
  (r.join q).select (.column { r.column with label := r.label })

end Reference

end ScopedQuery.Selection
