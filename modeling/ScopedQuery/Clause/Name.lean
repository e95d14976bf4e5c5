import ScopedQuery.Text.Blank
import ScopedQuery.Text.Letter

set_option autoImplicit false

namespace ScopedQuery.Clause

def isEntityChar (c : Char) : Bool := Text.isWordChar c || c == ' ' || c == '-'

def isEntityName (cs : List Char) : Bool := !cs.isEmpty && cs.all isEntityChar

def hasSpecialChar (cs : List Char) : Bool := cs.any fun c => !Text.isWordChar c

def isNameQuote (c : Char) : Bool := c == Text.backtick || c == Text.doubleQuote

/-- The name at the head of a text, and what follows it. A bare name takes every word character
there is; a quoted one holds characters of the given class and ends at the same mark. -/
def readName (inside : Char → Bool) : List Char → Option (List Char × List Char)
  | [] => none
  | c :: r =>
    if isNameQuote c then
      match r.takeWhile inside, r.dropWhile inside with
      | [], _ => none
      | _, [] => none
      | name, q :: rest => if q == c then some (name, rest) else none
    else
      match (c :: r).takeWhile Text.isWordChar with
      | [] => none
      | name => some (name, (c :: r).dropWhile Text.isWordChar)

end ScopedQuery.Clause
