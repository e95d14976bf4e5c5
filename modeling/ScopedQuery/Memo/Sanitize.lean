import ScopedQuery.Clause.Selectable
import ScopedQuery.Error
import ScopedQuery.Memo.Basic
import ScopedQuery.Sql.Comment

set_option autoImplicit false

/-!
Sanitizing of selected texts: they are checked as they were written, then their comments and the
blanks around them are removed. Results are remembered, refusals are not.
-/

namespace ScopedQuery

def sanitize (d : Sql.Dialect) (text : String) : Result String :=
  if Clause.isSelectable text.toList then
    .ok (String.ofList (Text.trim (Sql.stripComments d text.toList)))
  else .error (.invalidSelectField text)

/-- The sanitized form of a selected text, looked up in a memory first. -/
def Memo.sanitize (m : Memo) (d : Sql.Dialect) (text : String) : Result String × Memo :=
  match m.get ⟨text, d⟩ with
  | (some value, m) => (.ok value, m)
  | (none, m) =>
    match ScopedQuery.sanitize d text with
    | .ok value => (.ok value, m.insert ⟨text, d⟩ value)
    | .error e => (.error e, m)

end ScopedQuery
