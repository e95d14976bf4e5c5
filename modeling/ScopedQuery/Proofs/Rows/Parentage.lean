import ScopedQuery.Proofs.Access.Gate
import ScopedQuery.Proofs.Rows.Confinement

set_option autoImplicit false

namespace ScopedQuery

open Sql Outcome

namespace Access

variable {c : Catalog} {table : Table} {v : Viewer} {strict : Bool} {row : Row}

theorem parent_of_checkRead {entity : String} (free : c.access? entity v.user = none)
    (passed : checkRead c entity v = .ok ()) :
    ∃ parent a, v.parentEntity = some parent ∧ c.access? parent v.user = some a ∧
      (a.allows .select ∨ a.allows .read) ∧ c.isChildEntity entity = .ok true := by
  have parent {capability : Catalog.Capability}
      (h : c.Holds v.user v.parentEntity entity capability) :
      ∃ parent a, v.parentEntity = some parent ∧ c.access? parent v.user = some a ∧
        a.allows capability ∧ c.isChildEntity entity = .ok true := by
    cases h with
    | own granted _ =>
      rw [free] at granted
      cases granted
    | through _ child under granted allowed => exact ⟨_, _, under, granted, allowed, child⟩
  rcases mayRead_of_checkRead passed with selects | reads
  · obtain ⟨above, a, under, granted, allowed, child⟩ := parent selects
    exact ⟨above, a, under, granted, .inl allowed, child⟩
  · obtain ⟨above, a, under, granted, allowed, child⟩ := parent reads
    exact ⟨above, a, under, granted, .inr allowed, child⟩

theorem rowRule_ungranted (free : c.access? table.entity v.user = none) :
    rowRule c table v strict = .ok ⟨providedConditions c table.entity v.user, []⟩ := by
  have role : c.rolePermissions table.entity v.user = .none := by
    unfold Catalog.rolePermissions
    rw [free]
  unfold rowRule
  dsimp only
  rw [role]
  rfl

/-- A rule of provided conditions alone: one condition if anything is provided, and none if not. -/
theorem admits_provided {rule : RowRule}
    (ruled : rule = ⟨providedConditions c table.entity v.user, []⟩) :
    (rule.criterion? table = none ↔ ¬ ∃ sql, Provides c table.entity v.user sql) ∧
      ∀ row : Row, row.PassesAll (rule.criterion? table).toList ↔
        ∀ sql, Provides c table.entity v.user sql → row.Passes (.raw sql) := by
  subst ruled
  constructor
  · rw [← providedConditions_ne_nil, not_not]
    cases providedConditions c table.entity v.user with
    | nil => exact ⟨fun _ => rfl, fun _ => rfl⟩
    | cons condition rest => exact ⟨nofun, nofun⟩
  · intro row
    rw [passesAll_criterion?, ← passesAll_providedConditions]
    unfold RowRule.Admits
    simp [Row.Holds]

end Access

namespace Request

variable {c : Catalog} {s : Settings} {v : Viewer} {r : Request} {table : Table} {m m' : Memo}
  {q : Query}

/-- A viewer without a grant on an entity gets its rows only as child records of a parent entity
that they may select or read, be it on owned records only. Besides what was asked for, a build adds
one condition if a hook or the script of the entity provides any, and nothing otherwise; ownership
of the parent's records is not asked for. -/
theorem rows_of_ungranted (enforced : v.enforced) (resolved : r.target.resolve = .ok table)
    (free : c.access? table.entity v.user = none) (h : r.build c s v m = (.ok q, m')) :
    (∃ parent a, v.parentEntity = some parent ∧ c.access? parent v.user = some a ∧
      (a.allows .select ∨ a.allows .read) ∧ c.isChildEntity table.entity = .ok true) ∧
    ∃ (asked : Query) (extra : Option Criterion), (Request.asked c s.dialect v r m).1 = .ok asked ∧
      q = { asked with wheres := asked.wheres ++ extra.toList } ∧
      (extra = none ↔ ¬ ∃ sql, Access.Provides c table.entity v.user sql) ∧
      ∀ row : Row, row.PassesAll extra.toList ↔
        ∀ sql, Access.Provides c table.entity v.user sql → row.Passes (.raw sql) := by
  have opened : Access.checkRead c table.entity v = .ok () := by
    obtain ⟨gated, _, _, gate, _⟩ := build_ok h
    obtain ⟨resolves, passed⟩ := passGate_ok gate
    cases resolved.symm.trans resolves
    exact passed enforced
  refine ⟨Access.parent_of_checkRead free opened, ?_⟩
  obtain ⟨asked, made, built⟩ := asked_of_build enforced resolved (Access.rowRule_ungranted free) h
  obtain ⟨bare, passes⟩ := Access.admits_provided rfl
  exact ⟨asked, _, made, built, bare, passes⟩

def itemReader : Catalog :=
  ((Catalog.empty.withEntity "Task" .blank).withEntity "Task Item" ⟨true, [], []⟩).grant "jane"
    "Task" ⟨[], [.read], none, none⟩

def underTask : Viewer := { Viewer.ofUser "jane" with parentEntity := some "Task" }

theorem rows_of_ungranted_items :
    let c := itemReader.addHook "Task Item" fun _ _ => some "docstatus < 2"
    ∃ q m', (all (.entity "Task Item")).build c .standard underTask (.empty 1) = (.ok q, m') ∧
      ∃ (asked : Query) (extra : Criterion), q.wheres = asked.wheres ++ [extra] ∧
        ∀ row : Row, row.PassesAll [extra] → row.Passes (.raw "docstatus < 2") := by
  intro c
  refine ⟨_, _, rfl, ?_⟩
  have provides : Access.Provides c "Task Item" "jane" "docstatus < 2" :=
    ⟨by decide, .inl ⟨_, List.mem_cons_self, rfl⟩⟩
  have resolved : (all (.entity "Task Item")).target.resolve = .ok (Table.ofEntity "Task Item") :=
    rfl
  obtain ⟨_, asked, extra, _, built, bare, passes⟩ := rows_of_ungranted (c := c) (s := .standard)
    (v := underTask) (m := .empty 1) rfl resolved rfl rfl
  cases extra with
  | none => exact absurd ⟨_, provides⟩ (bare.1 rfl)
  | some extra =>
    exact ⟨asked, extra, congrArg Query.wheres built, fun row passed => (passes row).1 passed _
      provides⟩

/-- Every item of every task is visible to one who may read owned tasks only. -/
theorem rows_unowned_items :
    itemReader.access? "Task Item" "jane" = none ∧
    itemReader.access? "Task" "jane" = some ⟨[], [.read], none, none⟩ ∧
    itemReader.isChildEntity "Task Item" = .ok true ∧ underTask.enforced ∧
    underTask.parentEntity = some "Task" ∧
    Access.checkRead itemReader "Task Item" underTask = .ok () ∧
    ∃ q m', (all (.entity "Task Item")).build itemReader .standard underTask (.empty 1) =
      (.ok q, m') ∧ q.wheres = [] :=
  ⟨rfl, rfl, rfl, rfl, rfl, rfl, _, _, rfl, rfl⟩

end Request

end ScopedQuery
