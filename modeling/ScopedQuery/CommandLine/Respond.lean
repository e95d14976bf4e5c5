import ScopedQuery.CommandLine.Options
import ScopedQuery.Json.Parser
import ScopedQuery.Request.Children
import ScopedQuery.Request.Document
import ScopedQuery.Settings.Environment
import ScopedQuery.Settings.EnvFile

set_option autoImplicit false

namespace ScopedQuery.CommandLine

abbrev Files := Assoc String

inductive Failure where
  | config (path : String) (fault : Settings.Fault)
  | environment (fault : Settings.Fault)
  | catalog (path : String)
  | request (path : String)
  | notJson
  | query (error : QueryError)

def Failure.message : Failure → String
  | config path _ => "loading config " ++ path
  | environment _ => "reading config from environment"
  | catalog path => "loading catalog " ++ path
  | request path => "reading request " ++ path
  | notJson => "request is not valid JSON"
  | query error => error.message

structure Outcome where
  exitCode : UInt32
  output : String
  complaint : Option String
  deriving DecidableEq, Repr

def settings (files : Files) (env : Assoc String) (o : Options) : Except Failure Settings := do
  let s ← match o.config with
    | some path => (Settings.ofFile (files.find? path)).mapError (Failure.config path)
    | none => (Settings.ofEnvironment env).mapError Failure.environment
  pure { s with
    dialect := o.dialect.getD s.dialect
    strictUserPermissions := s.strictUserPermissions || o.strict }

def catalog (files : Files) (path : String) : Except Failure Catalog :=
  match (files.find? path).bind Catalog.Definition.ofYaml? with
  | some d =>
    match d.check with
    | .ok () => .ok (.ofDefinition d)
    | .error _ => .error (.catalog path)
  | none => .error (.catalog path)

def request (files : Files) (path : String) : Except Failure Request :=
  match files.find? path with
  | none => .error (.request path)
  | some text =>
    match Json.parse? text with
    | none => .error .notJson
    | some j => (Request.ofJson j).mapError .query

def viewer (o : Options) : Viewer :=
  { Viewer.ofUser o.user with
    enforced := !o.ignorePermissions
    referenceEntity := o.referenceEntity }

/-- The lines for the child queries, and the failure that ends them. Each query has a comment in
front that names it. -/
def childLines (c : Catalog) (s : Settings) (v : Viewer) (parents : List String) :
    List Sql.ChildQuery → Memo → List String × Option Failure
  | [], _ => ([], none)
  | child :: rest, m =>
    match child.build c s v parents m with
    | (.error e, _) => ([], some (.query e))
    | (.ok q, m) =>
      let (lines, failure) := childLines c s v parents rest m
      (("-- " ++ child.fieldname ++ " (" ++ child.entity ++ ")") :: q.sql :: lines, failure)

def answer (files : Files) (env : Assoc String) (o : Options) : List String × Option Failure :=
  let prepared : Except Failure (Settings × Catalog × Request) := do
    let s ← settings files env o
    let c ← catalog files o.catalog
    let r ← request files o.request
    pure (s, c, r)
  match prepared with
  | .error failure => ([], some failure)
  | .ok (s, c, r) =>
    match r.build c s (viewer o) (.empty s.cacheSize) with
    | (.error e, _) => ([], some (.query e))
    | (.ok q, m) =>
      let (lines, failure) := childLines c s (viewer o) o.parents q.children m
      (q.sql :: lines, failure)

def programName : String := "guarded-query"

def versionText : String := programName ++ " 0.6.6-dev\n"

def helpText : String :=
  "Permission-aware dynamic query construction: validated field/filter parsing, dynamic joins " ++
  "and row/column access control\n\n" ++
  "Usage: " ++ programName ++ " [OPTIONS] --catalog <CATALOG> --request <REQUEST>\n\n" ++
  "Options:\n" ++
  "      --catalog <CATALOG>\n" ++
  "          YAML catalog fixture (entities, access, user permissions, shares)\n" ++
  "      --request <REQUEST>\n" ++
  "          JSON request document\n" ++
  "      --user <USER>\n" ++
  "          Acting user [default: Administrator]\n" ++
  "      --config <CONFIG>\n" ++
  "          Builder configuration YAML; environment variables are used otherwise\n" ++
  "      --dialect <DIALECT>\n" ++
  "          SQL dialect (mariadb, postgres, sqlite)\n" ++
  "      --strict\n" ++
  "          Restrict link columns to permitted documents only\n" ++
  "      --ignore-permissions\n" ++
  "          Skip every permission check\n" ++
  "      --reference-entity <REFERENCE_ENTITY>\n" ++
  "          Entity whose link values are being listed\n" ++
  "      --parent <PARENT>\n" ++
  "          Parent record names used to render child queries\n" ++
  "  -h, --help\n" ++
  "          Print help\n" ++
  "  -V, --version\n" ++
  "          Print version\n"

def Notice.text : Notice → String
  | help => helpText
  | version => versionText

def envFile : String := ".env"

/-- Answers the arguments. Usage errors end with two, other failures with one. -/
def respond (files : Files) (env : Assoc String) (arguments : List String) : Outcome :=
  let env := match files.find? envFile with
    | some text => Settings.EnvFile.load env text
    | none => env
  match Command.ofArguments arguments with
  | .error fault => ⟨2, "", some ("error: " ++ fault.message)⟩
  | .ok (.notice n) => ⟨0, n.text, none⟩
  | .ok (.run o) =>
    let (lines, failure) := answer files env o
    let output := String.join (lines.map fun line => line ++ "\n")
    match failure with
    | none => ⟨0, output, none⟩
    | some f => ⟨1, output, some ("Error: " ++ f.message)⟩

def filesNamed (arguments : List String) : List String :=
  match Command.ofArguments arguments with
  | .ok (.run o) => envFile :: o.catalog :: o.request :: o.config.toList
  | _ => []

def variablesRead : List String :=
  [Settings.dialectVariable, Settings.strictVariable, Settings.cacheSizeVariable]

end ScopedQuery.CommandLine
