import ScopedQuery.Text.HiddenTable
import ScopedQuery.Text.Letter

set_option autoImplicit false

namespace ScopedQuery.Text

/-- One character of a shown text: the quote, the backslash and four controls have short escapes, a
character without a picture is written as its number. -/
def shownChar (c : Char) : List Char :=
  if c == doubleQuote || c == backslash then [backslash, c]
  else if c == '\t' then [backslash, 't']
  else if c == '\r' then [backslash, 'r']
  else if c == '\n' then [backslash, 'n']
  else if c.toNat == 0 then [backslash, '0']
  else if isHidden c then
    [backslash, 'u', '\x7b'] ++ Nat.toDigits 16 c.toNat ++ ['\x7d']
  else [c]

def shown (s : String) : String :=
  String.ofList (doubleQuote :: s.toList.flatMap shownChar ++ [doubleQuote])

end ScopedQuery.Text
