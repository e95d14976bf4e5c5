import ScopedQuery.Catalog.Definition
import ScopedQuery.Text.Letter
import ScopedQuery.Text.Replace

set_option autoImplicit false

namespace ScopedQuery

abbrev Catalog.Hook := String → String → Option String

abbrev Catalog.Script := String → Option String

structure Catalog where
  entities : Assoc Catalog.Entity
  users : Assoc Catalog.User
  hooks : Assoc (List Catalog.Hook)
  scripts : Assoc Catalog.Script

namespace Catalog

def empty : Catalog := ⟨[], [], [], []⟩

/-- The name under which hooks apply to every entity. -/
def wildcard : String := "*"

def userPlace : String := "\x7buser\x7d"

/-- A template with the user's name in it as a text literal. -/
def renderTemplate (template user : String) : String :=
  let quote := [Text.singleQuote]
  Text.replaceAll userPlace
    (String.ofList (quote ++ Text.doubling Text.singleQuote user.toList ++ quote)) template

def ofDefinition (d : Definition) : Catalog where
  entities := d.entities
  users := d.users
  hooks := d.conditions.map fun (entity, templates) =>
    (entity, templates.map fun t => fun user _ => some (renderTemplate t user))
  scripts := d.scripts.map fun (entity, t) => (entity, fun user => some (renderTemplate t user))

def withEntity (c : Catalog) (name : String) (e : Entity) : Catalog :=
  { c with entities := c.entities.put name e }

def withTree (c : Catalog) (name : String) (nodes : List Tree.Node) : Catalog :=
  { c with
    entities := c.entities.alter name fun e => { e.getD .blank with nodes := nodes } }

def alterUser (c : Catalog) (user : String) (f : User → User) : Catalog :=
  { c with users := c.users.alter user fun u => f (u.getD .blank) }

def grant (c : Catalog) (user entity : String) (a : Access) : Catalog :=
  c.alterUser user fun u => { u with access := u.access.put entity a }

def withUserPermission (c : Catalog) (user entity : String) (p : UserPermission) : Catalog :=
  c.alterUser user fun u =>
    { u with permissions := u.permissions.alter entity fun ps => ps.getD [] ++ [p] }

def share (c : Catalog) (entity user name : String) : Catalog :=
  c.alterUser user fun u =>
    { u with shared := u.shared.alter entity fun names => names.getD [] ++ [name] }

def addHook (c : Catalog) (entity : String) (h : Hook) : Catalog :=
  { c with hooks := c.hooks.alter entity fun hs => hs.getD [] ++ [h] }

def setScript (c : Catalog) (entity : String) (s : Script) : Catalog :=
  { c with scripts := c.scripts.put entity s }

def entity (c : Catalog) (name : String) : Result Entity :=
  match c.entities.find? name with
  | some e => .ok e
  | none => .error (.unknownEntity name)

def field? (c : Catalog) (entity fieldname : String) : Result (Option Field) := do
  let e ← c.entity entity
  pure (e.fields.find? fun f => f.fieldname == fieldname)

def linkFields (c : Catalog) (entity : String) : Result (List Field) := do
  let e ← c.entity entity
  pure (e.fields.filter fun f => f.type == .link)

def isChildEntity (c : Catalog) (entity : String) : Result Bool := do
  let e ← c.entity entity
  pure e.isChild

def access? (c : Catalog) (entity user : String) : Option Access :=
  (c.users.find? user).bind fun u => u.access.find? entity

/-- Whether a user holds a capability on an entity. Without a grant of their own, child records are
reached through the parent. -/
def hasPermission (c : Catalog) (entity : String) (capability : Capability) (user : String)
    (parent : Option String) : Result Bool :=
  match c.access? entity user with
  | some a => .ok (a.allows capability)
  | none =>
    match parent with
    | none => .ok false
    | some parent => do
      let e ← c.entity entity
      pure (e.isChild && ((c.access? parent user).any fun a => a.allows capability))

def rolePermissions (c : Catalog) (entity user : String) : RolePermissions :=
  match c.access? entity user with
  | none => .none
  | some a => ⟨a.allows .read, a.allows .select, !a.ifOwner.isEmpty, a.ifOwner⟩

/-- The columns of an entity that a user may see for a capability. A user without a grant of their
own is not confined to columns. -/
def permittedFields (c : Catalog) (entity user : String) (capability : Capability)
    (ignoreVirtual : Bool) : Result (List String) := do
  let e ← c.entity entity
  let columns := e.columns ignoreVirtual
  match c.access? entity user with
  | none => pure columns
  | some a =>
    let declared := match capability with
      | .select => a.selectFields <|> a.permittedFields
      | _ => a.permittedFields
    match declared with
    | some fields => pure (columns.filter fields.contains)
    | none => pure columns

def onlySelects (c : Catalog) (entity user : String) : Bool :=
  (c.access? entity user).any fun a => a.allows .select && !a.allows .read

/-- The capability by which a user sees columns: selecting, for those who may do nothing else. -/
def columnCapability (c : Catalog) (entity user : String) : Capability :=
  if c.onlySelects entity user then .select else .read

def userPermissions (c : Catalog) (user : String) : Assoc (List UserPermission) :=
  ((c.users.find? user).map User.permissions).getD []

def sharedWith (c : Catalog) (entity user : String) : List String :=
  ((c.users.find? user).bind fun u => u.shared.find? entity).getD []

def hooksOf (c : Catalog) (entity : String) : List Hook :=
  (c.hooks.find? entity).getD [] ++
    (if entity == wildcard then [] else (c.hooks.find? wildcard).getD [])

def script? (c : Catalog) (entity : String) : Option Script := c.scripts.find? entity

/-- The interval of a record in its entity's tree. A reversed interval is a fault. -/
def bounds? (c : Catalog) (entity name : String) : Result (Option Tree.Bounds) := do
  let e ← c.entity entity
  match e.nodes.find? fun n => n.name == name with
  | none => pure none
  | some n => if n.isOrdered then pure (some n.bounds) else throw (.corruptBounds n entity)

def namesInRange (c : Catalog) (entity : String) (range : Tree.Range) : Result (List String) := do
  let e ← c.entity entity
  pure ((Tree.nodesIn e.nodes range).map Tree.Node.name)

end Catalog

end ScopedQuery
