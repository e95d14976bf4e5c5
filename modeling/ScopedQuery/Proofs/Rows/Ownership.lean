import ScopedQuery.Proofs.Rows.Rule

set_option autoImplicit false

namespace ScopedQuery

open Sql Outcome Catalog

def Catalog.Access.OwnedOnly (a : Catalog.Access) : Prop :=
  (a.allows .select ∨ a.allows .read) ∧
    ∀ capability ∈ [Capability.select, .read], capability ∈ a.capabilities → capability ∈ a.ifOwner

namespace Access

variable {c : Catalog} {users : Assoc Catalog.User} {a : Catalog.Access} {table : Table}
  {v : Viewer} {strict : Bool} {rule : RowRule}

theorem requiresOwner_iff {entity user : String} (held : c.access? entity user = some a) :
    requiresOwner (c.rolePermissions entity user) ↔ a.ifOwner ≠ [] ∧
      ∀ capability ∈ [Capability.select, .read],
        capability ∈ a.capabilities → capability ∈ a.ifOwner := by
  have role : c.rolePermissions entity user =
      ⟨a.allows .read, a.allows .select, !a.ifOwner.isEmpty, a.ifOwner⟩ := by
    unfold Catalog.rolePermissions
    rw [held]
  rw [role]
  unfold requiresOwner
  by_cases select : Capability.select ∈ a.ifOwner <;>
    by_cases read : Capability.read ∈ a.ifOwner <;>
    simp [RolePermissions.grants, Catalog.Access.allows, select, read]

theorem requiresOwner_of_ownedOnly {entity user : String} (held : c.access? entity user = some a)
    (owned : a.OwnedOnly) : requiresOwner (c.rolePermissions entity user) := by
  obtain ⟨reads, inside⟩ := owned
  refine (requiresOwner_iff held).2 ⟨?_, inside⟩
  have own (capability : Capability) (mem : capability ∈ [Capability.select, .read])
      (allowed : a.allows capability) : capability ∈ a.ifOwner := by
    unfold Catalog.Access.allows at allowed
    rw [Bool.or_eq_true, List.contains_iff_mem, List.contains_iff_mem] at allowed
    exact allowed.elim (inside capability mem) id
  rcases reads with allowed | allowed
  · exact List.ne_nil_of_mem (own .select (by simp) allowed)
  · exact List.ne_nil_of_mem (own .read (by simp) allowed)

section

variable (owner : requiresOwner (c.rolePermissions table.entity v.user))

include owner

theorem rowRule_owner : rowRule c table v strict =
    .ok ⟨(table.column "owner").equals (.text v.user) :: providedConditions c table.entity v.user,
      c.sharedWith table.entity v.user⟩ := by
  unfold rowRule
  dsimp only
  rw [if_pos owner]
  rfl

theorem admits_owner {row : Row} (ruled : rowRule c table v strict = .ok rule) :
    rule.Admits table row ↔ row.Holds table "name" (c.sharedWith table.entity v.user) ∨
      row.text? table "owner" = some v.user ∧
        row.PassesAll (providedConditions c table.entity v.user) := by
  rw [rowRule_owner owner] at ruled
  cases ruled
  unfold RowRule.Admits
  rw [Row.PassesAll, List.forall_mem_cons, Row.passes_equals]
  simp [Row.PassesAll, Table.column]

/-- The records that a viewer of owned records is confined to do not matter. -/
theorem rowRule_owner_withUsers (same : c.SameAccess users)
    (shared : (c.withUsers users).sharedWith table.entity v.user =
      c.sharedWith table.entity v.user) :
    rowRule (c.withUsers users) table v strict = rowRule c table v strict := by
  have owner' : requiresOwner ((c.withUsers users).rolePermissions table.entity v.user) := by
    rwa [rolePermissions_withUsers same]
  rw [rowRule_owner owner, rowRule_owner owner', shared]
  rfl

end

end Access

namespace Request

variable {c : Catalog} {s : Settings} {v : Viewer} {r : Request} {table : Table} {m : Memo}
  {a : Catalog.Access}

/-- A viewer who may select and read owned records only gets rows that they own or that are shared
with them, by a condition behind all others, and the same query whatever records they are confined
to. -/
theorem rows_of_owner (enforced : v.enforced) (resolved : r.target.resolve = .ok table)
    (held : c.access? table.entity v.user = some a) (owned : a.OwnedOnly) :
    (∀ q m', r.build c s v m = (.ok q, m') →
      (∃ asked criterion, q.wheres = asked ++ [criterion] ∧ ∀ row : Row, row.Passes criterion ↔
        row.Holds table "name" (c.sharedWith table.entity v.user) ∨
          row.text? table "owner" = some v.user ∧
            row.PassesAll (Access.providedConditions c table.entity v.user)) ∧
      ∀ row : Row, row.PassesAll q.wheres → row.text? table "owner" = some v.user ∨
        row.Holds table "name" (c.sharedWith table.entity v.user)) ∧
    ∀ permissions, r.build (c.alterUser v.user fun u => { u with permissions := permissions }) s v
      m = r.build c s v m := by
  have owner := Access.requiresOwner_of_ownedOnly held owned
  constructor
  · intro q m' built
    obtain ⟨_, asked, rule, _, _, ruled, wheres⟩ := wheres_of_build enforced resolved built
    have admits (row : Row) : rule.Admits table row ↔ _ := Access.admits_owner owner ruled
    have conditions : rule.conditions ≠ [] := by
      rw [Access.rowRule_owner owner] at ruled
      cases ruled
      exact List.cons_ne_nil _ _
    obtain ⟨criterion, found⟩ := Access.criterion?_eq_some table conditions
    have passes (row : Row) : row.Passes criterion ↔ rule.Admits table row := by
      rw [← Access.passesAll_criterion?, found, Option.toList_some, Row.passesAll_singleton]
    rw [found, Option.toList_some] at wheres
    refine ⟨⟨asked.wheres, criterion, wheres, fun row => ?_⟩, fun row passed => ?_⟩
    · rw [passes, admits]
    · rw [wheres, Row.passesAll_append, Row.passesAll_singleton, passes, admits] at passed
      exact passed.2.symm.imp_left And.left
  · intro permissions
    have same : c.SameAccess (c.alterUser v.user fun u =>
        { u with permissions := permissions }).users := sameAccess_alterUser fun _ => rfl
    have shared : (c.alterUser v.user fun u => { u with permissions := permissions }).sharedWith
        table.entity v.user = c.sharedWith table.entity v.user :=
      sharedWith_alterUser fun _ => rfl
    refine build_withUsers same resolved fun asked at_table => ?_
    cases at_table
    unfold confine
    rw [if_pos enforced, if_pos enforced]
    exact Access.confineRows_withUsers (Access.rowRule_owner_withUsers owner same shared)

def ownReader : Catalog :=
  (((Catalog.empty.withEntity "Task" .blank).grant "jane" "Task"
    ⟨[], [.read], none, none⟩).withUserPermission "jane" "Project" ⟨"P-1", none⟩).share
      "Task" "jane" "T-9"

theorem rows_of_owner_reader :
    ∃ q m', (all (.entity "Task")).build ownReader .standard (.ofUser "jane") (.empty 1) =
        (.ok q, m') ∧
      (∀ row : Row, row.PassesAll q.wheres →
        row.text? (.ofEntity "Task") "owner" = some "jane" ∨
          row.Holds (.ofEntity "Task") "name" ["T-9"]) ∧
      (all (.entity "Task")).build (ownReader.alterUser "jane" fun u =>
        { u with permissions := [] }) .standard (.ofUser "jane") (.empty 1) = (.ok q, m') := by
  have owned : Catalog.Access.OwnedOnly ⟨[], [.read], Option.none, Option.none⟩ := by
    constructor
    · decide
    · simp
  have rows := rows_of_owner (c := ownReader) (s := .standard) (v := .ofUser "jane")
    (r := all (.entity "Task")) (m := .empty 1) rfl rfl rfl owned
  exact ⟨_, _, rfl, (rows.1 _ _ rfl).2, (rows.2 []).trans rfl⟩

end Request

end ScopedQuery
