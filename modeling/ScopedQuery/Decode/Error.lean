import ScopedQuery.Json.Basic
import ScopedQuery.Text.Quoted

set_option autoImplicit false

namespace ScopedQuery

inductive DecodeError where
  | kind (found : Json) (expected : String)
  /-- A value of the right kind that is out of range. -/
  | value (found : Json) (expected : String)
  | length (count : Nat) (expected : String)
  | missingField (name : String)
  | unknownField (name : String) (known : List String)
  | unknownVariant (name : String) (known : List String)
  | noVariant (type : String)

namespace Json

def description : Json → String
  | .null => "null"
  | .bool b => "boolean \x60" ++ (if b then "true" else "false") ++ "\x60"
  | .int n => "integer \x60" ++ Decimal.ofInt n ++ "\x60"
  | .float x => "floating point \x60" ++ Decimal.ofFloat floatStyle x ++ "\x60"
  | .str s => "string " ++ Text.shown s
  | .arr _ => "sequence"
  | .obj _ => "map"

end Json

namespace DecodeError

def ticked (name : String) : String := "\x60" ++ name ++ "\x60"

def choice : List String → String
  | [] => "there are no choices"
  | [a] => "expected " ++ ticked a
  | [a, b] => "expected " ++ ticked a ++ " or " ++ ticked b
  | names => "expected one of " ++ ", ".intercalate (names.map ticked)

def message : DecodeError → String
  | kind found expected => "invalid type: " ++ found.description ++ ", expected " ++ expected
  | value found expected => "invalid value: " ++ found.description ++ ", expected " ++ expected
  | length count expected =>
    "invalid length " ++ Decimal.ofNat count ++ ", expected " ++ expected
  | missingField name => "missing field " ++ ticked name
  | unknownField name known => "unknown field " ++ ticked name ++ ", " ++ choice known
  | unknownVariant name known => "unknown variant " ++ ticked name ++ ", " ++ choice known
  | noVariant type => "data did not match any variant of untagged enum " ++ type

end DecodeError

end ScopedQuery
