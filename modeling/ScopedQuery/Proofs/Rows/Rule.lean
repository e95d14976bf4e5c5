import ScopedQuery.Proofs.Request.Frame
import ScopedQuery.Proofs.Rows.Truth

set_option autoImplicit false

namespace ScopedQuery

open Sql Outcome

namespace Access

/-- Whether a row is visible by a rule. Where nothing but names is left to a rule, they are a
condition as well. -/
def RowRule.Admits (r : RowRule) (table : Table) (row : Row) : Prop :=
  row.Holds table "name" r.shared ∨
    row.PassesAll r.conditions ∧ (r.conditions = [] → r.shared = [])

theorem passesAll_criterion? {r : RowRule} {table : Table} {row : Row} :
    row.PassesAll (r.criterion? table).toList ↔ r.Admits table row := by
  obtain ⟨conditions, shared⟩ := r
  unfold RowRule.Admits
  cases conditions with
  | nil =>
    cases shared with
    | nil => simp [RowRule.criterion?, Row.Holds, Row.PassesAll]
    | cons name shared =>
      have criterion : (⟨[], name :: shared⟩ : RowRule).criterion? table =
          some ((table.column "name").oneOf (name :: shared)) := rfl
      rw [criterion]
      simp [Table.column]
  | cons condition conditions =>
    cases shared with
    | nil =>
      have criterion : (⟨condition :: conditions, []⟩ : RowRule).criterion? table =
          some (.all (condition :: conditions)) := rfl
      rw [criterion]
      simp [Row.Holds]
    | cons name shared =>
      have criterion : (⟨condition :: conditions, name :: shared⟩ : RowRule).criterion? table =
          some ((Criterion.all (condition :: conditions)).or
            ((table.column "name").oneOf (name :: shared))) := rfl
      rw [criterion]
      simp [Table.column, or_comm]

theorem passes_criterion {r : RowRule} {table : Table} {row : Row} {criterion : Criterion}
    (found : r.criterion? table = some criterion) : row.Passes criterion ↔ r.Admits table row := by
  rw [← passesAll_criterion?, found, Option.toList_some, Row.passesAll_singleton]

theorem criterion?_eq_some {r : RowRule} (table : Table) (conditional : r.conditions ≠ []) :
    ∃ criterion, r.criterion? table = some criterion := by
  obtain ⟨conditions, shared⟩ := r
  obtain ⟨condition, rest, rfl⟩ := List.exists_cons_of_ne_nil conditional
  cases shared with
  | nil => exact ⟨_, rfl⟩
  | cons name shared => exact ⟨_, rfl⟩

def countsShared (c : Catalog) (entity : String) (v : Viewer) : Bool :=
  let role := c.rolePermissions entity v.user
  requiresOwner role || (role.read || role.select) && isConfined c v

def rowConditions (c : Catalog) (table : Table) (v : Viewer) (strict : Bool) :
    Result (List Criterion) :=
  let role := c.rolePermissions table.entity v.user
  let provided := providedConditions c table.entity v.user
  if requiresOwner role then .ok ((table.column "owner").equals (.text v.user) :: provided)
  else if role.read || role.select then
    (userConditions c table v strict).map fun conditions => conditions ++ provided
  else .ok provided

variable {c : Catalog} {users : Assoc Catalog.User} {table : Table} {v : Viewer} {strict : Bool}
  {q q' : Query}

theorem rowRule_eq : rowRule c table v strict =
    (rowConditions c table v strict).map fun conditions => ⟨conditions,
      if countsShared c table.entity v then c.sharedWith table.entity v.user else []⟩ := by
  unfold rowRule rowConditions
  dsimp only
  by_cases owner : requiresOwner (c.rolePermissions table.entity v.user)
  · have counts : countsShared c table.entity v = true := by simp [countsShared, owner]
    rw [if_pos owner, if_pos owner, counts]
    rfl
  rw [if_neg owner, if_neg owner]
  by_cases reads : (c.rolePermissions table.entity v.user).read ||
      (c.rolePermissions table.entity v.user).select
  · have counts : countsShared c table.entity v = isConfined c v := by
      simp [countsShared, owner, reads]
    rw [if_pos reads, if_pos reads, counts]
    cases userConditions c table v strict with
    | error e => rfl
    | ok conditions => rfl
  · have counts : countsShared c table.entity v = false := by simp [countsShared, owner, reads]
    rw [if_neg reads, if_neg reads, counts]
    rfl

/-- The rule is the last condition of a query whose rows are confined, and all that is added. -/
theorem confineRows_eq (c : Catalog) (v : Viewer) (strict : Bool) (q : Query) :
    confineRows c v strict q = (rowRule c q.table v strict).map fun rule =>
      { q with wheres := q.wheres ++ (rule.criterion? q.table).toList } := by
  unfold confineRows
  cases rowRule c q.table v strict with
  | error fault => rfl
  | ok rule =>
    dsimp only [bind, Except.bind, Except.map]
    cases rule.criterion? q.table with
    | some criterion => rfl
    | none =>
      rw [Option.toList_none, List.append_nil]
      rfl

theorem confineRows_ok (h : confineRows c v strict q = .ok q') :
    ∃ rule, rowRule c q.table v strict = .ok rule ∧
      q' = { q with wheres := q.wheres ++ (rule.criterion? q.table).toList } := by
  rw [confineRows_eq] at h
  obtain ⟨rule, ruled, rfl⟩ := map_eq_ok.1 h
  exact ⟨rule, ruled, rfl⟩

theorem confineRows_withUsers
    (ruled : rowRule (c.withUsers users) q.table v strict = rowRule c q.table v strict) :
    confineRows (c.withUsers users) v strict q = confineRows c v strict q := by
  unfold confineRows
  rw [ruled]

section

variable (same : c.SameAccess users)

include same

theorem rolePermissions_withUsers (entity user : String) :
    (c.withUsers users).rolePermissions entity user = c.rolePermissions entity user := by
  unfold Catalog.rolePermissions
  rw [same]

theorem rowConditions_withUsers
    (permissions : (c.withUsers users).userPermissions v.user = c.userPermissions v.user) :
    rowConditions (c.withUsers users) table v strict = rowConditions c table v strict := by
  have conditions : userConditions (c.withUsers users) table v strict =
      userConditions c table v strict := by
    unfold userConditions
    rw [permissions]
    rfl
  unfold rowConditions
  rw [rolePermissions_withUsers same, conditions]
  rfl

theorem countsShared_withUsers (entity : String)
    (permissions : (c.withUsers users).userPermissions v.user = c.userPermissions v.user) :
    countsShared (c.withUsers users) entity v = countsShared c entity v := by
  unfold countsShared isConfined
  rw [rolePermissions_withUsers same, permissions]

end

end Access

namespace Request

variable {c : Catalog} {s : Settings} {v : Viewer} {r : Request} {table : Table} {m m' : Memo}
  {q : Query}

theorem confine_ok {strict : Bool} {q' : Query} (h : confine c strict v q = .ok q') :
    ∃ wheres, q' = { q with wheres } := by
  unfold confine at h
  split at h
  · obtain ⟨_, _, rfl⟩ := Access.confineRows_ok h
    exact ⟨_, rfl⟩
  · cases h
    exact ⟨_, rfl⟩

/-- The conditions of a built query are those that the caller asked for, and the rule behind them. -/
theorem wheres_of_build (enforced : v.enforced) (resolved : r.target.resolve = .ok table)
    (h : r.build c s v m = (.ok q, m')) :
    ∃ picked asked rule, selectFields c s.dialect v r table m = (.ok picked, m') ∧
      arrange c r picked = .ok asked ∧
      Access.rowRule c table v s.strictUserPermissions = .ok rule ∧
      q.wheres = asked.wheres ++ (rule.criterion? table).toList := by
  obtain ⟨gated, picked, asked, gate, selected, arranged, confined⟩ := build_ok h
  obtain ⟨resolves, _⟩ := passGate_ok gate
  cases resolved.symm.trans resolves
  have at_table : asked.table = table := by
    rw [table_of_arrange arranged, table_of_selectFields selected]
  rw [confine, if_pos enforced] at confined
  obtain ⟨rule, ruled, rfl⟩ := Access.confineRows_ok confined
  rw [at_table] at ruled ⊢
  exact ⟨picked, asked, rule, selected, arranged, ruled, rfl⟩

theorem table_of_asked {d : Dialect} (resolved : r.target.resolve = .ok table)
    (h : asked c d v r m = (.ok q, m')) : q.table = table := by
  unfold asked at h
  split at h
  · cases h
  · next gated gate =>
    obtain ⟨resolves, _⟩ := passGate_ok gate
    cases resolved.symm.trans resolves
    dsimp only at h
    rw [Prod.mk.injEq] at h
    obtain ⟨picked, selected, arranged⟩ := bind_eq_ok.1 h.1
    rw [table_of_arrange arranged, table_of_selectFields (Prod.ext selected rfl)]

/-- What is added to a build is the rule as a condition, if the rule makes one. -/
theorem asked_of_build {rule : Access.RowRule} (enforced : v.enforced)
    (resolved : r.target.resolve = .ok table)
    (ruled : Access.rowRule c table v s.strictUserPermissions = .ok rule)
    (h : r.build c s v m = (.ok q, m')) :
    ∃ asked : Query, (Request.asked c s.dialect v r m).1 = .ok asked ∧
      q = { asked with wheres := asked.wheres ++ (rule.criterion? table).toList } := by
  rw [build_eq, Prod.mk.injEq] at h
  obtain ⟨asked, made, confined⟩ := bind_eq_ok.1 h.1
  have at_table : asked.table = table := table_of_asked resolved (Prod.ext made rfl)
  rw [confine, if_pos enforced] at confined
  obtain ⟨rule', again, rfl⟩ := Access.confineRows_ok confined
  subst at_table
  obtain rfl : rule = rule' := Except.ok.inj (ruled.symm.trans again)
  exact ⟨asked, made, rfl⟩

end Request

end ScopedQuery
