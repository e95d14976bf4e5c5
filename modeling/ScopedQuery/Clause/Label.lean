import ScopedQuery.Clause.Name

set_option autoImplicit false

namespace ScopedQuery.Clause

def afterAs? (blank : Char → Bool) (fold : Char → Char) (cs : List Char) : Option (List Char) :=
  match cs with
  | c :: r =>
    if blank c then
      match Text.afterFolded? fold ['a', 's'] (r.dropWhile blank) with
      | some (d :: rest) => if blank d then some (rest.dropWhile blank) else none
      | _ => none
    else none
  | [] => none

def label? (cs : List Char) : Option (List Char) :=
  match afterAs? Text.isBlank Text.foldLetter cs with
  | some rest =>
    match readName Text.isWordChar rest with
    | some (name, []) => some name
    | _ => none
  | none => none

def cutAtAs : List Char → List Char × Option (List Char)
  | [] => ([], none)
  | c :: r =>
    match afterAs? Text.isBlank Text.foldLetter (c :: r) with
    | some rest => ([], some rest)
    | none =>
      let (before, behind) := cutAtAs r
      (c :: before, behind)

def unquoted (cs : List Char) : List Char :=
  ((cs.dropWhile isNameQuote).reverse.dropWhile isNameQuote).reverse

/-- An expression and its label. Blanks around both and quote marks around the label are dropped; an
empty label is none. -/
def splitLabel (cs : List Char) : List Char × Option (List Char) :=
  let (before, behind) := cutAtAs cs
  (Text.trim before,
    (behind.map fun l => unquoted (Text.trim l)).filter fun l => !l.isEmpty)

end ScopedQuery.Clause
