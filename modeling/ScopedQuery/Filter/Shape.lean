import ScopedQuery.Error

set_option autoImplicit false

namespace ScopedQuery

inductive Filter where
  /-- A name, an object, or an array of names or of conditions. -/
  | json (value : Json)
  | criterion (criterion : Sql.Criterion)
  | list (filters : List Filter)

namespace Filter

/-- A field, an operator and a value; the entity of the field is given where it may be another one
than the queried one. -/
structure Condition where
  entity : Option String
  field : String
  operator : String
  value : Json

inductive Step where
  | condition (condition : Condition)
  | criterion (criterion : Sql.Criterion)
  | malformed (fault : FilterFault)

def isName : Json → Bool
  | .bool _ | .int _ | .float _ | .str _ => true
  | .null | .arr _ | .obj _ => false

def Step.named (operator : String) (value : Json) : Step :=
  .condition ⟨none, "name", operator, value⟩

def Step.ofMember (field : String) (value : Json) : Step :=
  match value with
  | .arr [.str operator, value] => .condition ⟨none, field, operator, value⟩
  | .arr items => .malformed (.member field (.arr items))
  | value => .condition ⟨none, field, "=", value⟩

def Step.ofTuple : List Json → Step
  | [.str field, value] => .condition ⟨none, field, "=", value⟩
  | [.str field, .str operator, value] => .condition ⟨none, field, operator, value⟩
  | [.str entity, .str field, .str operator, value] =>
    .condition ⟨some entity, field, operator, value⟩
  | items => .malformed (.tuple items)

mutual

/-- The steps of a JSON value. An array that holds names only asks for any of them. -/
def stepsOfJson : Json → List Step
  | .null => []
  | .obj members => members.map fun (field, value) => Step.ofMember field value
  | .arr items =>
    if !items.isEmpty && items.all isName then [Step.named "in" (.arr items)]
    else stepsOfItems items
  | name => [Step.named "=" name]

def stepsOfItems : List Json → List Step
  | [] => []
  | .arr items :: rest => Step.ofTuple items :: stepsOfItems rest
  | item :: rest => stepsOfJson item ++ stepsOfItems rest

end

mutual

def steps : Filter → List Step
  | json value => stepsOfJson value
  | criterion c => [.criterion c]
  | list filters => stepsOfList filters

def stepsOfList : List Filter → List Step
  | [] => []
  | f :: rest => f.steps ++ stepsOfList rest

end

end Filter

end ScopedQuery
