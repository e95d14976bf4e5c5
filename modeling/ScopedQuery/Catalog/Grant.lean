import ScopedQuery.Assoc

set_option autoImplicit false

namespace ScopedQuery.Catalog

inductive Capability where
  | select | read | write | create | delete
  deriving DecidableEq, Repr

namespace Capability

def name : Capability → String
  | select => "select"
  | read => "read"
  | write => "write"
  | create => "create"
  | delete => "delete"

def all : List Capability := [select, read, write, create, delete]

end Capability

structure Access where
  capabilities : List Capability
  ifOwner : List Capability
  /-- The columns the user may read; every column when absent. -/
  permittedFields : Option (List String)
  /-- The columns visible to a user who may only select; those of a reader when absent. -/
  selectFields : Option (List String)
  deriving DecidableEq, Repr

namespace Access

def none : Access := ⟨[], [], Option.none, Option.none⟩

def allows (a : Access) (c : Capability) : Bool := a.capabilities.contains c || a.ifOwner.contains c

end Access

structure RolePermissions where
  read : Bool
  select : Bool
  hasIfOwner : Bool
  ifOwner : List Capability
  deriving DecidableEq, Repr

namespace RolePermissions

def none : RolePermissions := ⟨false, false, false, []⟩

/-- Whether reading or selecting is granted; nothing else is ever granted by this record. -/
def grants (r : RolePermissions) : Capability → Bool
  | .read => r.read
  | .select => r.select
  | _ => false

end RolePermissions

structure UserPermission where
  doc : String
  applicableFor : Option String
  deriving DecidableEq, Repr

structure User where
  access : Assoc Access
  permissions : Assoc (List UserPermission)
  /-- The names of the records shared with the user, by entity. -/
  shared : Assoc (List String)

def User.blank : User := ⟨[], [], []⟩

end ScopedQuery.Catalog
