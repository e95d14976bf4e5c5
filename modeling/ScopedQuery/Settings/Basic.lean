import ScopedQuery.Decode.Basic
import ScopedQuery.Memo.Basic

set_option autoImplicit false

namespace ScopedQuery

structure Settings where
  dialect : Sql.Dialect
  /-- Whether an empty link is hidden from a user who is confined to records. -/
  strictUserPermissions : Bool
  cacheSize : Nat
  deriving DecidableEq, Repr

namespace Settings

def standard : Settings := ⟨.mariadb, false, Memo.defaultCapacity⟩

def maxCacheSize : Nat := 1000000

inductive ValueFault where
  | unknownDialect (text : String)
  | notBool
  | noDigits
  | invalidDigit
  | tooLarge
  deriving DecidableEq, Repr

def ValueFault.message : ValueFault → String
  | unknownDialect text => Sql.Dialect.unknownMessage text
  | notBool => "provided string was not \x60true\x60 or \x60false\x60"
  | noDigits => "cannot parse integer from empty string"
  | invalidDigit => "invalid digit found in string"
  | tooLarge => "number too large to fit in target type"

inductive Fault where
  | badVariable (name value : String) (fault : ValueFault)
  | unreadable
  | malformed (content : String)
  | cacheSize
  deriving DecidableEq, Repr

namespace Fault

/-- The name of what could not be read, and the value found there; nothing for values out of
range. -/
def place? : Fault → Option (String × String)
  | badVariable name value _ => some (name, value)
  | unreadable => some ("yaml_file", "file read failed")
  | malformed content => some ("yaml_content", content)
  | cacheSize => none

def message : Fault → String
  | badVariable name value fault =>
    "Parse error for " ++ name ++ ": " ++ value ++ " - " ++ fault.message
  | unreadable => "Parse error for yaml_file: file read failed"
  | malformed content => "Parse error for yaml_content: " ++ content
  | cacheSize =>
    "Validation error: validator_cache_size: Validator cache size must be between 1 and " ++
      Decimal.ofNat maxCacheSize

end Fault

def checked (s : Settings) : Except Fault Settings :=
  if 1 ≤ s.cacheSize && s.cacheSize ≤ maxCacheSize then .ok s else .error .cacheSize

def dialectDecoder : Decoder Sql.Dialect :=
  .variant ([Sql.Dialect.mariadb, .postgres, .sqlite].map fun d => (d.name, d))

open Decoder in
def decode : Decoder Settings :=
  record "BuilderConfig" false
    [defaulted "dialect" dialectDecoder fun s d => { s with dialect := d },
     defaulted "apply_strict_user_permissions" bool fun s b =>
       { s with strictUserPermissions := b },
     defaulted "validator_cache_size" size fun s n => { s with cacheSize := n }]
    .standard

/-- The settings of a file's content; nothing stands for a file that cannot be read. -/
def ofFile (content : Option String) : Except Fault Settings :=
  match content with
  | none => .error .unreadable
  | some text =>
    match (Yaml.Node.parse? text).bind decode.yaml with
    | some s => s.checked
    | none => .error (.malformed text)

end Settings

end ScopedQuery
