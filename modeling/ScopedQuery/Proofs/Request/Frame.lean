import ScopedQuery.Proofs.Catalog.Users
import ScopedQuery.Proofs.Request.Growth

set_option autoImplicit false

namespace ScopedQuery

open Sql Outcome

def Catalog.SameAccess (c : Catalog) (users : Assoc Catalog.User) : Prop :=
  ∀ entity user, (c.withUsers users).access? entity user = c.access? entity user

variable {c : Catalog} {users : Assoc Catalog.User}

theorem Catalog.sameAccess_alterUser {user : String} {f : User → User}
    (keep : ∀ u, (f u).access = u.access) : c.SameAccess (c.alterUser user f).users :=
  fun _ _ => access?_alterUser keep

theorem Selection.parseEntries_withUsers (own : Table) (d : Dialect) (es : List Entry) (m : Memo) :
    parseEntries (c.withUsers users) own d es m = parseEntries c own d es m := by
  induction es generalizing m with
  | nil => rfl
  | cons e es ih =>
    have first : parseEntry (c.withUsers users) own d m e = parseEntry c own d m e := by
      cases e <;> rfl
    rw [parseEntries, parseEntries, first]
    simp only [ih]

namespace Access

variable (same : c.SameAccess users)

include same

theorem checkRead_withUsers (entity : String) (v : Viewer) :
    checkRead (c.withUsers users) entity v = checkRead c entity v := by
  have held (capability : Catalog.Capability) :
      (c.withUsers users).hasPermission entity capability v.user v.parentEntity =
        c.hasPermission entity capability v.user v.parentEntity := by
    unfold Catalog.hasPermission
    simp only [same _ _]
    rfl
  unfold checkRead
  rw [held, held]

theorem visibleColumns_withUsers (user entity : String) :
    visibleColumns (c.withUsers users) user entity = visibleColumns c user entity := by
  unfold visibleColumns Catalog.columnCapability Catalog.onlySelects Catalog.permittedFields
  rw [same]
  rfl

theorem seesColumn_withUsers (user entity fieldname : String) :
    seesColumn (c.withUsers users) user entity fieldname = seesColumn c user entity fieldname := by
  unfold seesColumn
  rw [visibleColumns_withUsers same]

theorem seesAll_withUsers (user : String) (columns : List Column) :
    seesAll (c.withUsers users) user columns = seesAll c user columns := by
  induction columns with
  | nil => rfl
  | cons column columns ih => rw [seesAll, seesAll, seesColumn_withUsers same, ih]

theorem narrowItem_withUsers (user : String) (own : List String) (i : Selection.Item) :
    narrowItem (c.withUsers users) user own i = narrowItem c user own i := by
  cases i with
  | plain column => rw [narrowItem, narrowItem, seesColumn_withUsers same]
  | call f => rw [narrowItem, narrowItem, seesAll_withUsers same]
  | child q => rw [narrowItem, narrowItem, visibleColumns_withUsers same]
  | reference r =>
    rw [narrowItem, narrowItem]
    split
    · rfl
    · rw [seesColumn_withUsers same]
  | star t => rfl
  | position n => rfl
  | term t => rfl

theorem narrow_withUsers (table : Table) (v : Viewer) (items : List Selection.Item) :
    narrow (c.withUsers users) table v items = narrow c table v items := by
  unfold narrow
  rw [visibleColumns_withUsers same]
  simp only [funext (narrowItem_withUsers same v.user _)]

end Access

namespace Request

variable {s : Settings} {v : Viewer} {r : Request} {table : Table} {m m' m₁ m₂ : Memo}
  {q q' : Query}

theorem table_of_selectFields {d : Dialect} (h : selectFields c d v r table m = (.ok q, m')) :
    q.table = table := by
  rcases selectFields_ok h with ⟨items, _, rfl⟩ | rfl
  · exact (Selection.grows_selectAll (T := fun _ => True) (C := fun _ => True)
      (fun _ => trivial) (fun _ _ _ _ => trivial) (fun _ => trivial) _).table
  · rfl

theorem table_of_arrange (h : arrange c r q = .ok q') : q'.table = q.table := by
  have filter (filtered : Query) (applied : filterRows c r.filters q = .ok filtered) :
      Grows (fun _ => True) (fun _ => True) q filtered := by
    unfold filterRows at applied
    split at applied
    · exact Filter.grows_apply (fun _ _ => trivial) (fun _ => trivial)
        (fun _ _ _ _ _ _ _ => trivial) (fun _ _ => trivial) applied
    · cases applied
      exact .refl q
  exact (grows_arrange filter (fun _ => trivial) (fun _ => trivial) h).table

theorem arrange_withUsers (r : Request) (q : Query) :
    arrange (c.withUsers users) r q = arrange c r q := rfl

section

variable (same : c.SameAccess users)

include same

theorem passGate_withUsers : passGate (c.withUsers users) v r = passGate c v r := by
  unfold passGate
  simp only [Access.checkRead_withUsers same]

theorem selectFields_withUsers (d : Dialect) :
    selectFields (c.withUsers users) d v r table m = selectFields c d v r table m := by
  have items : selectItems (c.withUsers users) d v table r.fields m =
      selectItems c d v table r.fields m := by
    unfold selectItems
    simp only [Selection.parse, Selection.parseEntries_withUsers, Access.narrow_withUsers same]
  unfold selectFields
  rw [items]

/-- Catalogs build the same query when users may do the same in them and rows are confined alike. -/
theorem build_withUsers (resolved : r.target.resolve = .ok table)
    (confined : ∀ asked : Query, asked.table = table →
      confine (c.withUsers users) s.strictUserPermissions v asked =
        confine c s.strictUserPermissions v asked) :
    r.build (c.withUsers users) s v m = r.build c s v m := by
  unfold build
  rw [passGate_withUsers same]
  cases gate : passGate c v r with
  | error e => rfl
  | ok gated =>
    obtain ⟨resolves, _⟩ := passGate_ok gate
    cases resolved.symm.trans resolves
    dsimp only
    rw [selectFields_withUsers same]
    -- Both builds select and ask for the same, so that they differ in the last step if at all.
    obtain ⟨⟨selected, m'⟩, selects⟩ : ∃ p, selectFields c s.dialect v r table m = p := ⟨_, rfl⟩
    rw [selects]
    cases selected with
    | error e => rfl
    | ok picked =>
      change (finish _ _ _ _ picked, m') = (finish _ _ _ _ picked, m')
      rw [finish_eq, finish_eq, arrange_withUsers]
      cases arranged : arrange c r picked with
      | error e => rfl
      | ok asked =>
        have at_table : asked.table = table := by
          rw [table_of_arrange arranged, table_of_selectFields selects]
        change (confine _ _ _ asked, m') = (confine _ _ _ asked, m')
        rw [confined asked at_table]

end

end Request

end ScopedQuery
