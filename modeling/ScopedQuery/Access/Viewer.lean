set_option autoImplicit false

namespace ScopedQuery

structure Viewer where
  user : String
  parentEntity : Option String
  /-- The entity that holds the link whose values are listed. -/
  referenceEntity : Option String
  enforced : Bool
  narrowsColumns : Bool
  deriving DecidableEq, Repr

namespace Viewer

def ofUser (user : String) : Viewer := ⟨user, none, none, true, true⟩

def confinesColumns (v : Viewer) : Bool := v.enforced && v.narrowsColumns

def trustedUnder (v : Viewer) (parentEntity : String) : Viewer :=
  { v with enforced := false, parentEntity := some parentEntity }

end Viewer

end ScopedQuery
