import ScopedQuery.Text.Blank
import ScopedQuery.Text.Letter

set_option autoImplicit false

namespace ScopedQuery.Sql

inductive Dialect where
  | mariadb
  | postgres
  | sqlite
  deriving DecidableEq, Repr

namespace Dialect

def name : Dialect → String
  | mariadb => "mariadb"
  | postgres => "postgres"
  | sqlite => "sqlite"

/-- The form in which a dialect's name is looked up: without blanks around it, in lower case. -/
def normalName (text : String) : String :=
  String.ofList (Text.lowerAscii (Text.trim text.toList))

def ofName? (text : String) : Option Dialect :=
  match normalName text with
  | "mariadb" | "mysql" => some mariadb
  | "postgres" | "postgresql" => some postgres
  | "sqlite" => some sqlite
  | _ => none

def unknownMessage (text : String) : String := "unknown dialect '" ++ normalName text ++ "'"

def quoteChar : Dialect → Char
  | mariadb | sqlite => Text.backtick
  | postgres => Text.doubleQuote

def quoteIdentifier (d : Dialect) (name : String) : String :=
  String.ofList (d.quoteChar :: Text.doubling d.quoteChar name.toList ++ [d.quoteChar])

/-- The inside of a string literal: a quote is written twice, and where a backslash escapes, a
backslash too. -/
def stringBody (d : Dialect) (cs : List Char) : List Char :=
  cs.flatMap fun c =>
    if c == Text.singleQuote then [c, c]
    else if c == Text.backslash && d == mariadb then [c, c]
    else [c]

def quoteString (d : Dialect) (value : String) : String :=
  String.ofList (Text.singleQuote :: d.stringBody value.toList ++ [Text.singleQuote])

def supportsRowLocking : Dialect → Bool
  | sqlite => false
  | mariadb | postgres => true

def hasHashComments : Dialect → Bool
  | mariadb => true
  | postgres | sqlite => false

def regexOperator : Dialect → String
  | mariadb | sqlite => "REGEXP"
  | postgres => "~"

end Dialect

end ScopedQuery.Sql
