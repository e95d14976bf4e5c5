import ScopedQuery.Sql.Dialect

set_option autoImplicit false

namespace ScopedQuery.CommandLine

structure Options where
  catalog : String
  request : String
  user : String
  /-- The file of the settings; the environment holds them where there is none. -/
  config : Option String
  dialect : Option Sql.Dialect
  strict : Bool
  ignorePermissions : Bool
  referenceEntity : Option String
  parents : List String
  deriving DecidableEq, Repr

inductive Notice where
  | help
  | version
  deriving DecidableEq, Repr

inductive UsageFault where
  | unknown (argument : String)
  | unexpected (argument : String)
  | repeated (option : String)
  | missingValue (option : String)
  | unwantedValue (option : String)
  | badValue (option value : String)
  | missing (option : String)
  deriving DecidableEq, Repr

def UsageFault.message : UsageFault → String
  | unknown argument => "unexpected argument '" ++ argument ++ "' found"
  | unexpected argument => "unexpected argument '" ++ argument ++ "' found"
  | repeated option => "the argument '--" ++ option ++ "' cannot be used multiple times"
  | missingValue option => "a value is required for '--" ++ option ++ "' but none was supplied"
  | unwantedValue option => "unexpected value for '--" ++ option ++ "' found; no more were expected"
  | badValue option value => "invalid value '" ++ value ++ "' for '--" ++ option ++ "'"
  | missing option => "the required argument '--" ++ option ++ "' was not provided"

structure Draft where
  options : Options
  given : List String

inductive Handling where
  | notice (notice : Notice)
  | flag (set : Options → Options)
  | value (set : Options → String → Option Options)
  /-- An option with a value that can be given more than once. -/
  | values (add : Options → String → Options)

def filled (s : String) : Option String := if s.isEmpty then none else some s

def handling? : String → Option Handling
  | "catalog" => some (.value fun o s => (filled s).map fun s => { o with catalog := s })
  | "request" => some (.value fun o s => (filled s).map fun s => { o with request := s })
  | "user" => some (.value fun o s => some { o with user := s })
  | "config" => some (.value fun o s => (filled s).map fun s => { o with config := some s })
  | "dialect" =>
    some (.value fun o s => (Sql.Dialect.ofName? s).map fun d => { o with dialect := some d })
  | "strict" => some (.flag fun o => { o with strict := true })
  | "ignore-permissions" => some (.flag fun o => { o with ignorePermissions := true })
  | "reference-entity" => some (.value fun o s => some { o with referenceEntity := some s })
  | "parent" => some (.values fun o s => { o with
      parents := o.parents ++ (s.toList.splitOn ',').map String.ofList })
  | "help" => some (.notice .help)
  | "version" => some (.notice .version)
  | _ => none

inductive Command where
  | run (options : Options)
  | notice (notice : Notice)
  deriving DecidableEq, Repr

def isValue (s : String) : Bool :=
  match s.toList with
  | '-' :: _ :: _ => false
  | _ => true

def splitLong (cs : List Char) : String × Option String :=
  let name := String.ofList (cs.takeWhile (· != '='))
  match cs.dropWhile (· != '=') with
  | _ :: value => (name, some (String.ofList value))
  | [] => (name, none)

namespace Draft

def start : Draft := ⟨⟨"", "", "Administrator", none, none, false, false, none, []⟩, []⟩

def once (d : Draft) (name : String) (options : Options) : Except UsageFault Draft :=
  if d.given.contains name then .error (.repeated name) else .ok ⟨options, name :: d.given⟩

def withValue (d : Draft) (name value : String) (set : Options → String → Option Options) :
    Except UsageFault Draft :=
  match set d.options value with
  | some options => d.once name options
  | none => .error (if d.given.contains name then .repeated name else .badValue name value)

def finish (d : Draft) : Except UsageFault Command :=
  match ["catalog", "request"].find? fun name => !d.given.contains name with
  | some name => .error (.missing name)
  | none => .ok (.run d.options)

def short (argument : String) (c : Char) : Except UsageFault Command :=
  if c == 'h' then .ok (.notice .help)
  else if c == 'V' then .ok (.notice .version)
  else .error (.unknown argument)

def read (d : Draft) : List String → Except UsageFault Command
  | [] => d.finish
  | argument :: rest =>
    match argument.toList with
    | '-' :: '-' :: [] =>
      match rest with
      | [] => d.finish
      | extra :: _ => .error (.unexpected extra)
    | '-' :: '-' :: cs =>
      let (name, attached) := splitLong cs
      match handling? name, attached, rest with
      | none, _, _ => .error (.unknown argument)
      | some (.notice n), none, _ => .ok (.notice n)
      | some (.notice _), some _, _ => .error (.unwantedValue name)
      | some (.flag set), none, rest =>
        match d.once name (set d.options) with
        | .ok d => d.read rest
        | .error e => .error e
      | some (.flag _), some _, _ => .error (.unwantedValue name)
      | some (.value set), some value, rest =>
        match d.withValue name value set with
        | .ok d => d.read rest
        | .error e => .error e
      | some (.value set), none, value :: rest =>
        if isValue value then
          match d.withValue name value set with
          | .ok d => d.read rest
          | .error e => .error e
        else .error (.missingValue name)
      | some (.value _), none, [] => .error (.missingValue name)
      | some (.values add), some value, rest => read { d with options := add d.options value } rest
      | some (.values add), none, value :: rest =>
        if isValue value then read { d with options := add d.options value } rest
        else .error (.missingValue name)
      | some (.values _), none, [] => .error (.missingValue name)
    | '-' :: c :: _ => short argument c
    | _ => .error (.unexpected argument)

end Draft

def Command.ofArguments (arguments : List String) : Except UsageFault Command :=
  Draft.start.read arguments

end ScopedQuery.CommandLine
