import ScopedQuery.Decode.Error
import ScopedQuery.Filter.Operand
import ScopedQuery.Tree.Bounds

set_option autoImplicit false

namespace ScopedQuery

inductive ErrorKind where
  | validation
  /-- Something the user may not see, or a text outside the whitelisted grammars. -/
  | permission
  | type
  | internal
  deriving DecidableEq, Repr

inductive FilterFault where
  | member (field : String) (value : Json)
  | tuple (items : List Json)
  | unrelated (entity owner : String)

def FilterFault.message : FilterFault → String
  | member field value => field ++ ": " ++ value.compact
  | tuple items => (Json.arr items).compact
  | unrelated entity owner =>
    entity ++ " is neither " ++ owner ++ " nor one of its child entities"

inductive RequestFault where
  | decode (error : DecodeError)
  | childFields (fieldname : String)
  | unknownMode (name : String)

def RequestFault.message : RequestFault → String
  | decode error => error.message
  | childFields fieldname => "child fields of '" ++ fieldname ++ "' must be a list of strings"
  | unknownMode name => "unknown mode '" ++ name ++ "'"

inductive DefinitionFault where
  | missingTarget (field entity : String)
  | unknownChildEntity (field entity target : String)
  | unorderedBounds (node : Tree.Node) (entity : String)

def DefinitionFault.message : DefinitionFault → String
  | missingTarget field entity =>
    "field '" ++ field ++ "' of '" ++ entity ++ "' has no target entity"
  | unknownChildEntity field entity target =>
    "field '" ++ field ++ "' of '" ++ entity ++ "' references unknown child entity '" ++ target ++
      "'"
  | unorderedBounds node entity =>
    "node '" ++ node.name ++ "' of '" ++ entity ++ "' has lft " ++ Decimal.ofInt node.lft.toInt ++
      " >= rgt " ++ Decimal.ofInt node.rgt.toInt

inductive QueryError where
  | invalidEntity (name : String)
  | insufficientPermission (entity : String)
  | invalidSelectField (text : String)
  | invalidFilterField (text : String)
  | invalidGroupBy (text : String)
  | invalidOrderBy (text : String)
  | invalidOrderDirection (text : String)
  | unparsableField (text : String)
  | unknownFilterFormat (fault : FilterFault)
  | unknownOperator (token : String)
  | unsupportedValue (fault : Filter.OperandFault)
  | invalidRequest (fault : RequestFault)
  | invalidLimit (limit : Int64)
  | invalidOffset (offset : Int64)
  | unknownEntity (entity : String)
  | invalidCatalog (fault : DefinitionFault)
  | corruptBounds (node : Tree.Node) (entity : String)

namespace QueryError

def kind : QueryError → ErrorKind
  | invalidEntity _ | insufficientPermission _ | invalidSelectField _ | invalidFilterField _
  | invalidGroupBy _ | invalidOrderBy _ => .permission
  | invalidOrderDirection _ | unparsableField _ | unknownFilterFormat _ | unknownOperator _
  | unsupportedValue _ | invalidRequest _ => .validation
  | invalidLimit _ | invalidOffset _ => .type
  | unknownEntity _ | invalidCatalog _ | corruptBounds _ _ => .internal

def message : QueryError → String
  | invalidEntity name => "Invalid entity name: " ++ name
  | insufficientPermission entity => "Insufficient Permission for " ++ entity
  | invalidSelectField text =>
    "Invalid field format for SELECT: " ++ text ++ ". Field names must be simple, quoted, " ++
      "table-qualified, aliased, a valid function call, or '*'."
  | invalidFilterField text =>
    "Invalid filter field format: " ++ text ++ ". Field names cannot contain special " ++
      "characters or disallowed patterns."
  | invalidGroupBy text => "Invalid field format in Group By: " ++ text
  | invalidOrderBy text => "Invalid field format in Order By: " ++ text
  | invalidOrderDirection text =>
    "Invalid direction in Order By: " ++ text ++ ". Must be 'ASC' or 'DESC'."
  | unparsableField text => "Could not parse field: " ++ text
  | unknownFilterFormat fault => "Unknown filter format: " ++ fault.message
  | unknownOperator token => "Unknown filter operator: " ++ token
  | unsupportedValue fault => "Unsupported filter value: " ++ fault.message
  | invalidRequest fault => "Invalid query request: " ++ fault.message
  | invalidLimit limit =>
    "Limit must be a non-negative integer, got " ++ Decimal.ofInt limit.toInt
  | invalidOffset offset =>
    "Offset must be a non-negative integer, got " ++ Decimal.ofInt offset.toInt
  | unknownEntity entity => "No metadata found for entity \x60" ++ entity ++ "\x60"
  | invalidCatalog fault => "Failed to parse catalog: " ++ fault.message
  | corruptBounds node entity =>
    "Catalog backend error: corrupt nested set bounds (" ++ Decimal.ofInt node.lft.toInt ++ ", " ++
      Decimal.ofInt node.rgt.toInt ++ ")\n  Context: node '" ++ node.name ++ "' of '" ++ entity ++
      "'"

end QueryError

abbrev Result (α : Type) := Except QueryError α

end ScopedQuery
