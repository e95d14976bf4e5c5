import ScopedQuery.Decode.Error
import ScopedQuery.Yaml.Node
import ScopedQuery.Yaml.Plain

set_option autoImplicit false

/-!
Descriptions of types, by which their values are read out of JSON and out of YAML. In JSON a record
may also be an array of its fields in their declared order, and the first thing that does not fit is
the error. In YAML any scalar is a text, a blank is an empty record, map or list, and a failure has
no cause.
-/

namespace ScopedQuery

structure Decoder (α : Type) where
  json : Json → Except DecodeError α
  yaml : Yaml.Node → Option α

namespace Decoder

variable {α β : Type}

def ofJson (read : Json → Except DecodeError α) : Decoder α := ⟨read, fun _ => none⟩

def map (f : α → β) (d : Decoder α) : Decoder β where
  json j := (d.json j).map f
  yaml n := (d.yaml n).map f

def string : Decoder String where
  json
    | .str s => .ok s
    | j => .error (.kind j "a string")
  yaml
    | .scalar s _ => some s
    | _ => none

def bool : Decoder Bool where
  json
    | .bool b => .ok b
    | j => .error (.kind j "a boolean")
  yaml
    | .scalar s true => Yaml.boolOf? s
    | _ => none

def signed : Decoder Int64 where
  json
    | .int n =>
      match Decimal.signed? n with
      | some i => .ok i
      | none => .error (.value (.int n) "i64")
    | j => .error (.kind j "i64")
  yaml
    | .scalar s true => (Yaml.integerOf? s).bind Decimal.signed?
    | _ => none

def size : Decoder Nat where
  json
    | .int n =>
      if 0 ≤ n && n < Decimal.wordLimit then .ok n.toNat else .error (.value (.int n) "usize")
    | j => .error (.kind j "usize")
  yaml
    | .scalar s true => (Yaml.naturalOf? s).filter fun n => n < Decimal.wordLimit
    | _ => none

/-- Null is nothing; every other value is read by the inner description. -/
def optional (inner : Decoder α) : Decoder (Option α) where
  json
    | .null => .ok none
    | j => (inner.json j).map some
  yaml
    | .scalar s plain =>
      if plain && Yaml.meansNull s then some none else (inner.yaml (.scalar s plain)).map some
    | n => (inner.yaml n).map some

def list (inner : Decoder α) : Decoder (List α) where
  json
    | .arr items => items.mapM inner.json
    | j => .error (.kind j "a sequence")
  yaml
    | .list items => items.mapM inner.yaml
    | .scalar "" true => some []
    | _ => none

def assoc (inner : Decoder α) : Decoder (Assoc α) where
  json
    | .obj members => do
      let entries ← members.mapM fun (name, j) => do pure (name, ← inner.json j)
      pure (Assoc.ofEntries entries)
    | j => .error (.kind j "a map")
  yaml
    | .map entries => do
      let entries ← entries.mapM fun (name, n) => do pure (← string.yaml name, ← inner.yaml n)
      pure (Assoc.ofEntries entries)
    | .scalar "" true => some []
    | _ => none

def choose (names : List (String × α)) (name : String) : Except DecodeError α :=
  match Assoc.find? names name with
  | some a => .ok a
  | none => .error (.unknownVariant name (names.map Prod.fst))

/-- A choice among names. In JSON it may also be an object with the name alone, whose value is
null. -/
def variant (names : List (String × α)) : Decoder α where
  json
    | .str s => choose names s
    | .obj [(s, .null)] => choose names s
    | .obj [(s, j)] => do
      let _ ← choose names s
      .error (.kind j "unit")
    | .obj members => .error (.value (.obj members) "map with a single key")
    | j => .error (.kind j "string or map")
  yaml
    | .scalar s _ => Assoc.find? names s
    | _ => none

structure RecordShape where
  type : String
  fields : List String
  closed : Bool

def RecordShape.sized (s : RecordShape) : String :=
  "struct " ++ s.type ++ " with " ++ Decimal.ofNat s.fields.length ++
    (if s.fields.length == 1 then " element" else " elements")

/-- One field of a record of type `ρ`: how it is read into the record, and whether it may be absent
from an object and from an array. -/
structure RecordField (ρ : Type) where
  name : String
  readJson : ρ → Json → Except DecodeError ρ
  readYaml : ρ → Yaml.Node → Option ρ
  inObject : Bool
  inArray : Bool

section Records

variable {ρ : Type}

def missing? (fields : List (RecordField ρ)) (names : List String) : Option String :=
  (fields.find? fun f => !f.inObject && !names.contains f.name).map RecordField.name

def readMembers (shape : RecordShape) (fields : List (RecordField ρ)) :
    List (String × Json) → ρ → Except DecodeError ρ
  | [], r => .ok r
  | (name, j) :: rest, r =>
    match fields.find? fun f => f.name == name with
    | some f => do readMembers shape fields rest (← f.readJson r j)
    | none =>
      if shape.closed then .error (.unknownField name shape.fields)
      else readMembers shape fields rest r

/-- Reads the items of an array as the fields in their order; `place` counts the fields passed. -/
def readItems (shape : RecordShape) (total : Nat) :
    List (RecordField ρ) → List Json → Nat → ρ → Except DecodeError ρ
  | [], [], _, r => .ok r
  | [], _ :: _, _, _ => .error (.length total "fewer elements in array")
  | f :: fields, [], place, r =>
    if f.inArray then readItems shape total fields [] (place + 1) r
    else .error (.length place shape.sized)
  | f :: fields, j :: items, place, r => do
    readItems shape total fields items (place + 1) (← f.readJson r j)

/-- Reads the entries of a YAML map in their order. `given` holds the declared fields that were
passed; none of them is given twice. -/
def readEntries (shape : RecordShape) (fields : List (RecordField ρ)) :
    List (Yaml.Node × Yaml.Node) → List String → ρ → Option (ρ × List String)
  | [], given, r => some (r, given)
  | (key, n) :: rest, given, r => do
    let name ← string.yaml key
    match fields.find? fun f => f.name == name with
    | some f =>
      if given.contains name then none
      else readEntries shape fields rest (name :: given) (← f.readYaml r n)
    | none => if shape.closed then none else readEntries shape fields rest given r

def record (type : String) (closed : Bool) (fields : List (RecordField ρ)) (blank : ρ) :
    Decoder ρ :=
  let shape : RecordShape := ⟨type, fields.map RecordField.name, closed⟩
  let ofEntries (entries : List (Yaml.Node × Yaml.Node)) : Option ρ := do
    let (r, given) ← readEntries shape fields entries [] blank
    if (missing? fields given).isNone then pure r else none
  { json := fun j =>
      match j with
      | .obj members => do
        let r ← readMembers shape fields members blank
        match missing? fields (members.map Prod.fst) with
        | some name => .error (.missingField name)
        | none => pure r
      | .arr items => readItems shape items.length fields items 0 blank
      | j => .error (.kind j ("struct " ++ type))
    yaml := fun n =>
      match n with
      | .map entries => ofEntries entries
      | .scalar "" true => ofEntries []
      | _ => none }

def required (name : String) (inner : Decoder α) (set : ρ → α → ρ) : RecordField ρ :=
  ⟨name, fun r j => (inner.json j).map (set r), fun r n => (inner.yaml n).map (set r), false, false⟩

def defaulted (name : String) (inner : Decoder α) (set : ρ → α → ρ) : RecordField ρ :=
  ⟨name, fun r j => (inner.json j).map (set r), fun r n => (inner.yaml n).map (set r), true, true⟩

def nullable (name : String) (inner : Decoder α) (set : ρ → Option α → ρ) : RecordField ρ :=
  ⟨name, fun r j => ((optional inner).json j).map (set r),
    fun r n => ((optional inner).yaml n).map (set r), true, false⟩

end Records

end Decoder

end ScopedQuery
