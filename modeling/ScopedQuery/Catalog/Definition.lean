import ScopedQuery.Catalog.Grant
import ScopedQuery.Catalog.Schema
import ScopedQuery.Decode.Basic
import ScopedQuery.Error

set_option autoImplicit false

namespace ScopedQuery.Catalog

structure Definition where
  entities : Assoc Entity
  users : Assoc User
  /-- Templates of conditions on an entity's rows, or on all rows under the wildcard. -/
  conditions : Assoc (List String)
  scripts : Assoc String

def Definition.blank : Definition := ⟨[], [], [], []⟩

section Decoding

open Decoder

def Capability.decode : Decoder Capability :=
  variant (Capability.all.map fun c => (c.name, c))

def Capability.decodeSet : Decoder (List Capability) := (list Capability.decode).map List.eraseDups

def Field.decode : Decoder Field :=
  record "FieldMeta" false
    [required "fieldname" string fun f s => { f with fieldname := s },
     required "fieldtype" string fun f s => { f with type := .ofName s },
     defaulted "options" (optional string) fun f s => { f with target := s },
     defaulted "ignore_user_permissions" bool fun f b => { f with ignoresUserPermissions := b },
     defaulted "is_virtual" bool fun f b => { f with isVirtual := b }]
    ⟨"", .data, none, false, false⟩

def decodeNode : Decoder Tree.Node :=
  record "NestedSetNode" false
    [required "name" string fun n s => { n with name := s },
     required "lft" signed fun n i => { n with lft := i },
     required "rgt" signed fun n i => { n with rgt := i }]
    ⟨"", 0, 0⟩

def Entity.decode : Decoder Entity :=
  record "EntityDefinition" false
    [defaulted "is_child" bool fun e b => { e with isChild := b },
     defaulted "fields" (list Field.decode) fun e fs => { e with fields := fs },
     defaulted "nodes" (list decodeNode) fun e ns => { e with nodes := ns }]
    .blank

def Access.decode : Decoder Access :=
  record "EntityAccess" false
    [defaulted "capabilities" Capability.decodeSet fun a cs => { a with capabilities := cs },
     defaulted "if_owner" Capability.decodeSet fun a cs => { a with ifOwner := cs },
     defaulted "permitted_fields" (optional (list string)) fun a fs =>
       { a with permittedFields := fs },
     defaulted "select_fields" (optional (list string)) fun a fs => { a with selectFields := fs }]
    .none

def UserPermission.decode : Decoder UserPermission :=
  record "UserPermission" false
    [required "doc" string fun p s => { p with doc := s },
     defaulted "applicable_for" (optional string) fun p s => { p with applicableFor := s }]
    ⟨"", none⟩

def User.decode : Decoder User :=
  record "UserDefinition" false
    [defaulted "access" (assoc Access.decode) fun u m => { u with access := m },
     defaulted "user_permissions" (assoc (list UserPermission.decode)) fun u m =>
       { u with permissions := m },
     defaulted "shared" (assoc (list string)) fun u m => { u with shared := m }]
    .blank

def RolePermissions.decode : Decoder RolePermissions :=
  record "RolePermissions" false
    [defaulted "read" bool fun r b => { r with read := b },
     defaulted "select" bool fun r b => { r with select := b },
     defaulted "has_if_owner_enabled" bool fun r b => { r with hasIfOwner := b },
     defaulted "if_owner" Capability.decodeSet fun r cs => { r with ifOwner := cs }]
    .none

def Definition.decode : Decoder Definition :=
  record "CatalogDefinition" false
    [defaulted "entities" (assoc Entity.decode) fun d m => { d with entities := m },
     defaulted "users" (assoc User.decode) fun d m => { d with users := m },
     defaulted "permission_query_conditions" (assoc (list string)) fun d m =>
       { d with conditions := m },
     defaulted "permission_query_scripts" (assoc string) fun d m => { d with scripts := m }]
    .blank

def Definition.ofYaml? (text : String) : Option Definition :=
  (Yaml.Node.parse? text).bind Definition.decode.yaml

end Decoding

/-- A link needs a target, and a collection needs one that is declared. -/
def Definition.checkField (d : Definition) (entity : String) (f : Field) :
    Except DefinitionFault Unit :=
  if f.type == .link || f.type.isCollection then
    match f.target with
    | none => .error (.missingTarget f.fieldname entity)
    | some target =>
      if f.type.isCollection && (d.entities.find? target).isNone then
        .error (.unknownChildEntity f.fieldname entity target)
      else .ok ()
  else .ok ()

def checkNode (entity : String) (n : Tree.Node) : Except DefinitionFault Unit :=
  if n.isOrdered then .ok () else .error (.unorderedBounds n entity)

def Definition.check (d : Definition) : Except DefinitionFault Unit :=
  d.entities.forM fun (name, e) => do
    e.fields.forM (d.checkField name)
    e.nodes.forM (checkNode name)

end ScopedQuery.Catalog
