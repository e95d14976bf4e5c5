import ScopedQuery.Json.Basic
import ScopedQuery.Text.Letter

set_option autoImplicit false

namespace ScopedQuery.Json

/-- A character inside a JSON string. Quotes, backslashes and control characters are escaped. -/
def escapedChar (c : Char) : List Char :=
  if c == Text.doubleQuote || c == Text.backslash then [Text.backslash, c]
  else if c == '\n' then [Text.backslash, 'n']
  else if c == '\r' then [Text.backslash, 'r']
  else if c == '\t' then [Text.backslash, 't']
  else if c.toNat == 8 then [Text.backslash, 'b']
  else if c.toNat == 12 then [Text.backslash, 'f']
  else if c.toNat < 0x20 then
    [Text.backslash, 'u', '0', '0', Nat.digitChar (c.toNat / 16), Nat.digitChar (c.toNat % 16)]
  else [c]

def quoted (s : String) : String :=
  String.ofList (Text.doubleQuote :: s.toList.flatMap escapedChar ++ [Text.doubleQuote])

mutual

def compact : Json → String
  | .null => "null"
  | .bool b => if b then "true" else "false"
  | .int n => Decimal.ofInt n
  | .float x => Decimal.ofFloat floatStyle x
  | .str s => quoted s
  | .arr items => "[" ++ ",".intercalate (compactItems items) ++ "]"
  | .obj members => "\x7b" ++ ",".intercalate (compactMembers members) ++ "\x7d"

def compactItems : List Json → List String
  | [] => []
  | j :: js => compact j :: compactItems js

def compactMembers : List (String × Json) → List String
  | [] => []
  | (name, j) :: rest => (quoted name ++ ":" ++ compact j) :: compactMembers rest

end

end ScopedQuery.Json
