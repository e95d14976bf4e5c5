import ScopedQuery.Sql.Dialect
import ScopedQuery.Text.Nesting

set_option autoImplicit false

/-!
Removal of SQL comments from a field expression. Block comments and double-hyphen line comments are
known to every dialect, hash line comments to one. A comment opener inside a quotation is text.
-/

namespace ScopedQuery.Sql

inductive Region where
  | code
  | quoted (mark : Char)
  /-- A block comment; `starred` when the last character of it was a star. -/
  | block (starred : Bool)
  | line
  deriving DecidableEq

/-- The text without its comments, for a scan that begins inside the given region. A block comment
leaves one space, so that the words on its two sides stay apart; a line comment leaves its line
break. -/
def stripFrom (d : Dialect) : Region → List Char → List Char
  | _, [] => []
  | .quoted q, c :: r => c :: stripFrom d (if c == q then .code else .quoted q) r
  | .block starred, c :: r =>
    stripFrom d (if starred && c == '/' then .code else .block (c == '*')) r
  | .line, c :: r => if c == '\n' then c :: stripFrom d .code r else stripFrom d .line r
  | .code, '/' :: '*' :: r => ' ' :: stripFrom d (.block false) r
  | .code, '-' :: '-' :: r => stripFrom d .line r
  | .code, c :: r =>
    if Text.isQuote c then c :: stripFrom d (.quoted c) r
    else if c == '#' && d.hasHashComments then stripFrom d .line r
    else c :: stripFrom d .code r

def stripComments (d : Dialect) (cs : List Char) : List Char := stripFrom d .code cs

end ScopedQuery.Sql
