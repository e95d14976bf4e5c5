import ScopedQuery.Proofs.Rows.Confinement

set_option autoImplicit false

namespace ScopedQuery.Access

open Sql Outcome

/-- Whether some criteria are among others all that the rule for a viewer can be. -/
structure Material (c : Catalog) (table : Table) (v : Viewer) (C : Criterion → Prop) : Prop where
  owner : C ((table.column "owner").equals (.text v.user))
  isNull : ∀ field, C (table.column field).isNull
  oneOf : ∀ field names, C ((table.column field).oneOf names)
  provided : ∀ sql, Provides c table.entity v.user sql → C (.raw sql)
  all : ∀ items, (∀ criterion ∈ items, C criterion) → C (.all items)
  or : ∀ a b, C a → C b → C (a.or b)

namespace Material

variable {C : Criterion → Prop} {c : Catalog} {table : Table} {v : Viewer} {strict : Bool}
  {rule : RowRule}

theorem confinement (h : Material c table v C) (strict : Bool) (field : String)
    (docs : List String) : C (Access.confinement strict (table.column field) docs) := by
  unfold Access.confinement
  split
  · exact h.oneOf field docs
  · exact h.or _ _ (h.isNull field) (h.oneOf field docs)

theorem conditions (h : Material c table v C) (made : rowRule c table v strict = .ok rule) :
    ∀ criterion ∈ rule.conditions, C criterion := by
  have provided : ∀ criterion ∈ providedConditions c table.entity v.user, C criterion := by
    intro criterion mem
    obtain ⟨sql, provides, rfl⟩ := mem_providedConditions.1 mem
    exact h.provided sql provides
  unfold rowRule at made
  dsimp only at made
  split at made
  · cases made
    exact List.forall_mem_cons.2 ⟨h.owner, provided⟩
  split at made
  · obtain ⟨conditions, users, made⟩ := bind_eq_ok.1 made
    cases made
    refine List.forall_mem_append.2 ⟨?_, provided⟩
    by_cases confined : c.userPermissions v.user = []
    · unfold userConditions at users
      rw [confined] at users
      cases users
      exact List.forall_mem_nil _
    rw [userConditions_eq confined] at users
    obtain ⟨e, _, rfl⟩ := map_eq_ok.1 users
    intro criterion mem
    obtain ⟨f, _, found⟩ := List.mem_filterMap.1 mem
    rw [fieldConfinement?_eq] at found
    split at found
    · cases found
    · cases found
      exact h.confinement strict _ _
  · cases made
    exact provided

theorem criterion (h : Material c table v C) (made : rowRule c table v strict = .ok rule) :
    ∀ criterion ∈ rule.criterion? table, C criterion := by
  have all := h.all _ (h.conditions made)
  have shared := h.oneOf "name" rule.shared
  intro criterion found
  unfold RowRule.criterion? at found
  split at found
  · cases found
  · cases found
    exact all
  · cases found
    exact shared
  · cases found
    exact h.or _ _ all shared

theorem wheres (h : Material c table v C) {q q' : Query} (home : q.table = table)
    (confined : Request.confine c strict v q = .ok q') : ∃ criteria,
      q' = { q with wheres := q.wheres ++ criteria } ∧ ∀ criterion ∈ criteria, C criterion := by
  subst home
  unfold Request.confine at confined
  split at confined
  · obtain ⟨rule, made, rfl⟩ := confineRows_ok confined
    refine ⟨_, rfl, fun criterion mem => ?_⟩
    exact h.criterion made criterion (Option.mem_toList.1 mem)
  · cases confined
    exact ⟨[], by rw [List.append_nil], List.forall_mem_nil _⟩

end Material

end ScopedQuery.Access
