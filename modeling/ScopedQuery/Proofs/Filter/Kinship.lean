import ScopedQuery.Proofs.Filter.Resolution

set_option autoImplicit false

namespace ScopedQuery

open Sql Outcome

namespace Filter

variable {c : Catalog} {q q' : Query} {entity field operator : String} {value : Json}

section Join

end Join

end Filter

end ScopedQuery
