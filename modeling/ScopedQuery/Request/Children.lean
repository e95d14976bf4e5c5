import ScopedQuery.Request.Build

set_option autoImplicit false

namespace ScopedQuery.Sql.ChildQuery

def request (q : ChildQuery) (parents : List String) : Request :=
  { Request.all (.entity q.entity) with
    fields := some (.entries ((q.fields ++ ["parent", "parentfield"]).map .text))
    filters := some (.json (.obj [
      ("parenttype", .str q.parentEntity),
      ("parentfield", .str q.fieldname),
      ("parent", .arr [.str "in", .arr (parents.map .str)])]))
    orderBy := some "idx asc" }

/-- The query for the child rows of some parents. No access rule applies again, because the columns
were narrowed when the parent's query was made. -/
def build (q : ChildQuery) (c : Catalog) (s : Settings) (v : Viewer) (parents : List String)
    (m : Memo) : Result Query × Memo :=
  (q.request parents).build c s (v.trustedUnder q.parentEntity) m

end ScopedQuery.Sql.ChildQuery
