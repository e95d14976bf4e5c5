import ScopedQuery.Proofs.Columns.Selected
import ScopedQuery.Proofs.Rows.Confinement

set_option autoImplicit false

namespace ScopedQuery

open Sql Outcome

namespace Catalog

variable {c : Catalog} {entity user : String} {a : Access}

end Catalog

namespace Request

open Selection

variable {c : Catalog} {s : Settings} {v : Viewer} {r : Request} {table : Table} {m m' : Memo}
  {a : Catalog.Access} {q : Query}

end Request

end ScopedQuery
