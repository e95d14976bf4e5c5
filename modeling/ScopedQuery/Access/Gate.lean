import ScopedQuery.Access.Viewer
import ScopedQuery.Catalog.Basic
import ScopedQuery.Clause.Name
import ScopedQuery.Text.WordTable

set_option autoImplicit false

namespace ScopedQuery.Access

def checkRead (c : Catalog) (entity : String) (v : Viewer) : Result Unit := do
  if ← c.hasPermission entity .select v.user v.parentEntity then pure ()
  else if ← c.hasPermission entity .read v.user v.parentEntity then pure ()
  else throw (.insufficientPermission entity)

/-- The entity of a quoted table at the head of a text, and what follows the table. The two quote
marks may differ. -/
def quotedMention? : List Char → Option (List Char × List Char)
  | [] => none
  | mark :: r =>
    if Clause.isNameQuote mark then
      match Text.after? Sql.Table.namePrefix.toList r with
      | some r =>
        match r.takeWhile Clause.isEntityChar, r.dropWhile Clause.isEntityChar with
        | e :: es, close :: rest => if Clause.isNameQuote close then some (e :: es, rest) else none
        | _, _ => none
      | none => none
    else none

def bareMention? (cs : List Char) : Option (List Char × List Char) :=
  match Text.after? Sql.Table.namePrefix.toList cs with
  | some r =>
    match r.takeWhile Text.isUnicodeWord, r.dropWhile Text.isUnicodeWord with
    | [], _ => none
    | entity, rest => some (entity, rest)
  | none => none

/-- The mention of a table at the head of a text. A bare one does not begin inside a word. -/
def mention? (inWord : Bool) (cs : List Char) : Option (List Char × List Char) :=
  quotedMention? cs <|> if inWord then none else bareMention? cs

/-- The mentions of tables in a text, from left to right. `skip` counts the characters that belong
to the mention found last, and `inWord` tells whether a word character stands in front. -/
def mentionsFrom : Nat → Bool → List Char → List (List Char)
  | _, _, [] => []
  | skip + 1, _, c :: r => mentionsFrom skip (Text.isUnicodeWord c) r
  | 0, inWord, c :: r =>
    match mention? inWord (c :: r) with
    | some (entity, rest) =>
      entity :: mentionsFrom (r.length - rest.length) (Text.isUnicodeWord c) r
    | none => mentionsFrom 0 (Text.isUnicodeWord c) r

def mentionedEntities (sql : String) : List String :=
  ((mentionsFrom 0 false sql.toList).map String.ofList).eraseDups

def checkSql (c : Catalog) (sql : String) (v : Viewer) : Result Unit :=
  (mentionedEntities sql).forM fun entity => checkRead c entity v

end ScopedQuery.Access
