import ScopedQuery.Tree.Bounds

set_option autoImplicit false

namespace ScopedQuery.Catalog

/-- The kinds of fields. Any other name is a kind of its own without a special rule. -/
inductive FieldType where
  | link
  | table
  /-- A collection of child records shown as a choice of several. -/
  | tableMultiSelect
  | data | int | check | date | datetime | select | text
  | other (name : String)
  deriving DecidableEq, Repr

namespace FieldType

def ofName : String → FieldType
  | "Link" => link
  | "Table" => table
  | "Table MultiSelect" => tableMultiSelect
  | "Data" => data
  | "Int" => int
  | "Check" => check
  | "Date" => date
  | "Datetime" => datetime
  | "Select" => select
  | "Text" => text
  | name => other name

def name : FieldType → String
  | link => "Link"
  | table => "Table"
  | tableMultiSelect => "Table MultiSelect"
  | data => "Data"
  | int => "Int"
  | check => "Check"
  | date => "Date"
  | datetime => "Datetime"
  | select => "Select"
  | text => "Text"
  | other name => name

def isCollection : FieldType → Bool
  | table | tableMultiSelect => true
  | _ => false

end FieldType

structure Field where
  fieldname : String
  type : FieldType
  target : Option String
  ignoresUserPermissions : Bool
  isVirtual : Bool
  deriving DecidableEq, Repr

def Field.link (fieldname target : String) : Field := ⟨fieldname, .link, some target, false, false⟩

structure Entity where
  isChild : Bool
  fields : List Field
  nodes : List Tree.Node

def Entity.blank : Entity := ⟨false, [], []⟩

def standardColumns : List String :=
  ["name", "owner", "creation", "modified", "modified_by", "docstatus", "idx"]

def childColumns : List String := ["parent", "parentfield", "parenttype"]

/-- The columns of an entity: the standard ones, then the declared ones that are not collections. -/
def Entity.columns (e : Entity) (ignoreVirtual : Bool) : List String :=
  standardColumns ++ (if e.isChild then childColumns else []) ++
    ((e.fields.filter fun f => !f.type.isCollection && !(ignoreVirtual && f.isVirtual)).map
      Field.fieldname)

end ScopedQuery.Catalog
