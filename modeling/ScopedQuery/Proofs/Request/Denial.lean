import ScopedQuery.Proofs.Access.Gate
import ScopedQuery.Proofs.Selection.Leads
import ScopedQuery.Request.Build

set_option autoImplicit false

namespace ScopedQuery.Request

open Sql

def Target.entityName : Target → String
  | entity name => name
  | table t => t.entity

variable {c : Catalog} {v : Viewer} {r : Request} {entity : String}

/-- The gate is in front of everything else: what a request says besides its target is not read. -/
theorem passGate_eq (named : Clause.isEntityName entity.toList) (enforced : v.enforced)
    (about : r.target.entityName = entity) : ∃ table : Table,
    passGate c v r = (Access.checkRead c entity v).map fun _ => table := by
  have gate (t : Table) (resolved : r.target.resolve = .ok t) (holds : t.entity = entity) :
      passGate c v r = (Access.checkRead c entity v).map fun _ => t := by
    unfold passGate
    rw [resolved, enforced, ← holds]
    change (Access.checkRead c t.entity v >>= fun _ => .ok t) = _
    cases Access.checkRead c t.entity v with
    | error e => rfl
    | ok passed => rfl
  cases target : r.target with
  | entity name =>
    rw [target] at gate about
    obtain rfl : name = entity := about
    exact ⟨_, gate (.ofEntity name) (if_pos named) (Table.entity_ofEntity name)⟩
  | table t =>
    rw [target] at gate about
    exact ⟨_, gate t rfl about⟩

/-- A viewer who may neither select nor read an entity, be it through the parent entity, gets one
and the same error for every request on it, whatever the settings and the memory are, and the memory
stays as it was. The error names the entity and nothing else. -/
theorem build_of_denied (named : Clause.isEntityName entity.toList) (enforced : v.enforced)
    (denied : ¬ Access.MayRead c v entity) : ∃ e : QueryError,
    (e = .insufficientPermission entity ∨
      e = .unknownEntity entity ∧ c.entity entity = .error (.unknownEntity entity)) ∧
    ∀ (s : Settings) (r : Request) (m : Memo), r.target.entityName = entity →
      r.build c s v m = (.error e, m) := by
  obtain ⟨e, refused, cause⟩ := Access.checkRead_of_not_mayRead denied
  refine ⟨e, cause, fun s r m about => ?_⟩
  obtain ⟨table, gate⟩ := passGate_eq (c := c) named enforced about
  have closed : passGate c v r = .error e := by
    rw [gate, refused]
    rfl
  unfold build
  rw [closed]

def ownTasks : Catalog :=
  ((Catalog.empty.withEntity "Task" .blank).withEntity "Task Item" ⟨true, [], []⟩).grant "jane"
    "Task" ⟨[.write], [.read], none, none⟩

/-- Under a parent entity that she has no grant on, a user cannot tell a malformed request from a
deletion of all records. -/
theorem build_of_denied_items :
    let v := { Viewer.ofUser "jane" with parentEntity := some "Project" }
    let hostile := { all (.entity "Task Item") with
      fields := some (.text "name; drop table x"), limit := some (-1) }
    let deletion := { all (.table (.ofEntity "Task Item")) with mode := .delete }
    ∃ e, ∀ m, hostile.build ownTasks .standard v m = (.error e, m) ∧
      deletion.build ownTasks .standard v m = (.error e, m) := by
  intro v hostile deletion
  have denied : ¬ Access.MayRead ownTasks v "Task Item" := by
    have free : ownTasks.access? "Task Item" "jane" = none ∧
        ownTasks.access? "Project" "jane" = none := by decide
    rintro (held | held)
    all_goals
      cases held with
      | own granted => exact nomatch free.1.symm.trans granted
      | through _ _ under granted =>
        cases under
        exact nomatch free.2.symm.trans granted
  obtain ⟨e, _, same⟩ := build_of_denied (by decide) rfl denied
  exact ⟨e, fun m => ⟨same .standard hostile m rfl,
    same .standard deletion m (Table.entity_ofEntity "Task Item")⟩⟩

end ScopedQuery.Request
