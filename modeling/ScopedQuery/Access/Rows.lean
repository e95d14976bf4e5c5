import ScopedQuery.Access.Viewer
import ScopedQuery.Catalog.Basic

set_option autoImplicit false

namespace ScopedQuery.Access

open Catalog

def requiresOwner (r : RolePermissions) : Bool :=
  r.hasIfOwner && !r.ifOwner.isEmpty &&
    !([Capability.select, .read].any fun c => r.grants c && !r.ifOwner.contains c)

/-- Whether a confinement concerns a field of the queried entity. A confinement of the records
themselves concerns them on behalf of the entity that refers to them. -/
def concerns (entity fieldname : String) (v : Viewer) (p : UserPermission) : Bool :=
  match p.applicableFor with
  | none => true
  | some target =>
    match v.referenceEntity with
    | some reference => target == (if fieldname == "name" then reference else entity)
    | none => target == entity

/-- The condition that a field names one of some records; an empty field passes unless the rule is
strict. -/
def confinement (strict : Bool) (column : Sql.Column) (docs : List String) : Sql.Criterion :=
  if strict then column.oneOf docs else column.isNull.or (column.oneOf docs)

def fieldConfinement? (table : Sql.Table) (v : Viewer) (strict : Bool)
    (permissions : Assoc (List UserPermission)) (f : Field) : Option Sql.Criterion := do
  if f.ignoresUserPermissions then none
  let permitted ← permissions.find? (← f.target)
  match permitted.filter (concerns table.entity f.fieldname v) with
  | [] => none
  | concerning =>
    pure (confinement strict (table.column f.fieldname) (concerning.map UserPermission.doc))

def userConditions (c : Catalog) (table : Sql.Table) (v : Viewer) (strict : Bool) :
    Result (List Sql.Criterion) := do
  let permissions := c.userPermissions v.user
  if permissions.isEmpty then pure []
  else
    let links ← c.linkFields table.entity
    pure ((Field.link "name" table.entity :: links).filterMap
      (fieldConfinement? table v strict permissions))

def isConfined (c : Catalog) (v : Viewer) : Bool := !(c.userPermissions v.user).isEmpty

/-- The conditions of the hooks on an entity, then of its script. Blank ones do not count. -/
def providedConditions (c : Catalog) (entity user : String) : List Sql.Criterion :=
  let ofHooks := (c.hooksOf entity).filterMap fun h => h user entity
  let ofScript := ((c.script? entity).bind fun s => s user).toList
  ((ofHooks ++ ofScript).filter fun sql => !Text.isBlankText sql.toList).map .raw

structure RowRule where
  conditions : List Sql.Criterion
  /-- The names of the records that are visible whatever the conditions say. -/
  shared : List String

/-- The rule for a viewer. Shared records count for those whose view is confined by ownership or by
records of theirs. -/
def rowRule (c : Catalog) (table : Sql.Table) (v : Viewer) (strict : Bool) : Result RowRule := do
  let entity := table.entity
  let role := c.rolePermissions entity v.user
  let provided := providedConditions c entity v.user
  if requiresOwner role then
    pure ⟨(table.column "owner").equals (.text v.user) :: provided, c.sharedWith entity v.user⟩
  else if role.read || role.select then
    let conditions ← userConditions c table v strict
    pure ⟨conditions ++ provided, if isConfined c v then c.sharedWith entity v.user else []⟩
  else pure ⟨provided, []⟩

def RowRule.criterion? (r : RowRule) (table : Sql.Table) : Option Sql.Criterion :=
  match r.conditions, r.shared with
  | [], [] => none
  | conditions, [] => some (.all conditions)
  | [], shared => some ((table.column "name").oneOf shared)
  | conditions, shared =>
    some ((Sql.Criterion.all conditions).or ((table.column "name").oneOf shared))

def confineRows (c : Catalog) (v : Viewer) (strict : Bool) (q : Sql.Query) : Result Sql.Query := do
  let rule ← rowRule c q.table v strict
  match rule.criterion? q.table with
  | some criterion => pure (q.restrict criterion)
  | none => pure q

end ScopedQuery.Access
