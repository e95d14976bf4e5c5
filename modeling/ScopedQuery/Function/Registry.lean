import ScopedQuery.Sql.Term
import ScopedQuery.Text.WordTable

set_option autoImplicit false

namespace ScopedQuery.Function

inductive ArgRule where
  | keep
  | swapFirstTwo
  | prepend (text : String)
  | replace (text : String)
  deriving DecidableEq, Repr

def ArgRule.apply : ArgRule → List Sql.Term → List Sql.Term
  | keep, args => args
  | swapFirstTwo, a :: b :: args => b :: a :: args
  | swapFirstTwo, args => args
  | prepend text, args => .text text :: args
  | replace text, _ => [.text text]

structure Spelling where
  name : String
  rule : ArgRule
  deriving DecidableEq, Repr

structure Entry where
  key : String
  sqlName : String
  postgres : Option Spelling
  sqlite : Option Spelling
  dropsArgs : Bool
  deriving DecidableEq, Repr

def plain (key sqlName : String) : Entry := ⟨key, sqlName, none, none, false⟩

def dateUnit (key sqlName field format : String) : Entry :=
  ⟨key, sqlName, some ⟨"DATE_PART", .prepend field⟩, some ⟨"STRFTIME", .prepend format⟩, false⟩

def registry : List Entry := [
  plain "count" "COUNT",
  plain "sum" "SUM",
  plain "avg" "AVG",
  plain "max" "MAX",
  plain "min" "MIN",
  plain "abs" "ABS",
  plain "coalesce" "COALESCE",
  plain "concat" "CONCAT",
  plain "lower" "LOWER",
  plain "upper" "UPPER",
  plain "length" "LENGTH",
  plain "date" "DATE",
  ⟨"ifnull", "IFNULL", some ⟨"COALESCE", .keep⟩, none, false⟩,
  ⟨"locate", "LOCATE", some ⟨"STRPOS", .swapFirstTwo⟩, some ⟨"INSTR", .swapFirstTwo⟩, false⟩,
  ⟨"now", "NOW", none, some ⟨"DATETIME", .replace "now"⟩, true⟩,
  ⟨"timestamp", "TIMESTAMP", none, some ⟨"DATETIME", .keep⟩, false⟩,
  ⟨"date_format", "DATE_FORMAT", some ⟨"TO_CHAR", .keep⟩, some ⟨"STRFTIME", .swapFirstTwo⟩, false⟩,
  dateUnit "year" "YEAR" "year" "%Y",
  dateUnit "month" "MONTH" "month" "%m",
  dateUnit "day" "DAY" "day" "%d",
  dateUnit "dayofyear" "DAYOFYEAR" "doy" "%j",
  plain "extract" "EXTRACT"]

def lookup? (name : String) : Option Entry :=
  registry.find? fun e => e.key.toList == Text.lowerAscii name.toList

def isRecognized (name : String) : Bool := (lookup? name).isSome

def Entry.spelling (e : Entry) (d : Sql.Dialect) : Spelling :=
  let own := match d with
    | .mariadb => none
    | .postgres => e.postgres
    | .sqlite => e.sqlite
  own.getD ⟨e.sqlName, .keep⟩

/-- The call of a function on a dialect. A name that is not registered is kept as it is. -/
def call (name : String) (args : List Sql.Term) (d : Sql.Dialect) : Sql.FunctionCall :=
  match lookup? name with
  | some e =>
    let s := e.spelling d
    ⟨s.name, s.rule.apply (if e.dropsArgs then [] else args), none⟩
  | none => ⟨name, args, none⟩

def startsCall (cs : List Char) : Bool :=
  registry.any fun e =>
    match Text.afterFolded? Text.foldLetter e.key.toList cs with
    | some ('(' :: _) => true
    | _ => false

/-- Whether a registered function is called anywhere in a text, its name not being the end of a
longer word. `inWord` tells whether a word character stands in front of the text. -/
def mentionsCallFrom : Bool → List Char → Bool
  | _, [] => false
  | inWord, c :: r =>
    (!inWord && startsCall (c :: r)) || mentionsCallFrom (Text.isUnicodeWord c) r

def mentionsCall (cs : List Char) : Bool := mentionsCallFrom false cs

end ScopedQuery.Function
