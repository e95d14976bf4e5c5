set_option autoImplicit false

namespace ScopedQuery.Text

/-- The text with every occurrence of a pattern replaced, from left to right; `skip` counts the
characters that still belong to the last occurrence. An empty pattern occurs nowhere. -/
def replaceFrom (pattern replacement : List Char) : Nat → List Char → List Char
  | _, [] => []
  | skip + 1, _ :: r => replaceFrom pattern replacement skip r
  | 0, c :: r =>
    if !pattern.isEmpty && pattern.isPrefixOf (c :: r) then
      replacement ++ replaceFrom pattern replacement (pattern.length - 1) r
    else c :: replaceFrom pattern replacement 0 r

def replaceAll (pattern replacement text : String) : String :=
  String.ofList (replaceFrom pattern.toList replacement.toList 0 text.toList)

end ScopedQuery.Text
