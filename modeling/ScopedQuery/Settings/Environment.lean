import ScopedQuery.Settings.Basic

set_option autoImplicit false

namespace ScopedQuery.Settings

def dialectVariable : String := "GUARDED_QUERY_DIALECT"

def strictVariable : String := "GUARDED_QUERY_STRICT_USER_PERMISSIONS"

def cacheSizeVariable : String := "GUARDED_QUERY_VALIDATOR_CACHE_SIZE"

def dialectOf (text : String) : Except ValueFault Sql.Dialect :=
  match Sql.Dialect.ofName? text with
  | some d => .ok d
  | none => .error (.unknownDialect text)

def boolOf : String → Except ValueFault Bool
  | "true" => .ok true
  | "false" => .ok false
  | _ => .error .notBool

/-- Reads digits behind the number `n` that was read so far. The first digit that is none, or that
leads beyond 64 bits, is the fault. -/
def digitsFrom (n : Nat) : List Char → Except ValueFault Nat
  | [] => .ok n
  | c :: r =>
    if !c.isDigit then .error .invalidDigit
    else
      let n := n * 10 + (c.toNat - '0'.toNat)
      if n < Decimal.wordLimit then digitsFrom n r else .error .tooLarge

def sizeOf (text : String) : Except ValueFault Nat :=
  match text.toList with
  | [] => .error .noDigits
  | '+' :: c :: r => digitsFrom 0 (c :: r)
  | cs => digitsFrom 0 cs

/-- The value of a variable; the default one where it is not set. -/
def ofVariable {α : Type} (env : Assoc String) (name : String) (standard : α)
    (read : String → Except ValueFault α) : Except Fault α :=
  match env.find? name with
  | none => .ok standard
  | some text =>
    match read text with
    | .ok a => .ok a
    | .error fault => .error (.badVariable name text fault)

def ofEnvironment (env : Assoc String) : Except Fault Settings := do
  let dialect ← ofVariable env dialectVariable standard.dialect dialectOf
  let strict ← ofVariable env strictVariable standard.strictUserPermissions boolOf
  let size ← ofVariable env cacheSizeVariable standard.cacheSize sizeOf
  checked ⟨dialect, strict, size⟩

end ScopedQuery.Settings
