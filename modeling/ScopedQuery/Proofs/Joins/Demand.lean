import ScopedQuery.Proofs.Filter.Resolution
import ScopedQuery.Proofs.Joins.Extension
import ScopedQuery.Proofs.Request.Growth

set_option autoImplicit false

namespace ScopedQuery

open Sql Outcome

namespace Sql.Query

/-- Whether a query differs from another one in its joins by what was asked for only. -/
structure Joined (asked : List Join) (q q' : Query) : Prop where
  table : q'.table = q.table
  joins : q'.joins = Join.extend q.joins asked

namespace Joined

variable {asked further : List Join} {q q' q'' : Query}

theorem refl (q : Query) : Joined [] q q := ⟨rfl, rfl⟩

theorem trans (h : Joined asked q q') (h' : Joined further q' q'') :
    Joined (asked ++ further) q q'' where
  table := h'.table.trans h.table
  joins := by rw [h'.joins, h.joins, Join.extend_append]

theorem of_grows {T : Term → Prop} {C : Criterion → Prop} (h : Grows T C q q')
    (never : ∀ criterion, ¬ C criterion) : Joined [] q q' :=
  ⟨h.table, h.joins.eq_self fun j => never j.on⟩

theorem ensureJoin (q : Query) (table : Table) (on : Criterion) :
    Joined [⟨table, on⟩] q (q.ensureJoin table on) := by
  unfold Query.ensureJoin Query.isJoined
  split
  · next there => exact ⟨rfl, (if_pos there).symm⟩
  · next new => exact ⟨rfl, (if_neg new).symm⟩

theorem isJoined_iff (h : Joined asked q q') (fresh : q.joins = []) {table : Table} :
    q'.isJoined table ↔ ∃ j ∈ asked, j.table = table := by
  rw [isJoined, Join.any_table, h.joins, fresh, Join.mem_tables_extend, List.nil_append,
    List.mem_map]

end Joined

end Sql.Query

open Query (Joined)

namespace Selection

def Reference.toJoin (r : Reference) : Join := ⟨r.table, r.joinCriterion⟩

theorem Reference.joined_join (r : Reference) (q : Query) : Joined [r.toJoin] q (r.join q) :=
  .ensureJoin q r.table r.joinCriterion

def Item.joins : Item → List Join
  | .reference r => [r.toJoin]
  | .plain _ | .star _ | .position _ | .call _ | .child _ | .term _ => []

theorem Item.joined_select (i : Item) (q : Query) : Joined i.joins q (i.select q) := by
  cases i with
  | reference r => exact (r.joined_join q).trans ⟨rfl, rfl⟩
  | plain _ | star _ | position _ | call _ | child _ | term _ => exact ⟨rfl, rfl⟩

theorem joined_selectAll (items : List Item) (q : Query) :
    Joined (items.flatMap Item.joins) q (selectAll q items) := by
  have all : Joined (items.flatMap Item.joins) q (items.foldl Item.select q) := by
    induction items generalizing q with
    | nil => exact .refl q
    | cons i items ih =>
      rw [List.flatMap_cons]
      exact (i.joined_select q).trans (ih (i.select q))
  unfold selectAll
  dsimp only
  split
  · exact all
  · exact ⟨all.table, all.joins⟩

end Selection

namespace Filter

variable {c : Catalog} {own : Table} {q q' : Query}

def related? (c : Catalog) (own : Table) (field : String) : Option Selection.Reference :=
  (Selection.Reference.parse c own.entity field).toOption.join

def Condition.childJoin? (own : Table) (f : Condition) : Option Join :=
  (f.other? own).map fun e =>
    ⟨.ofEntity e, Selection.childRowsOf (.ofEntity e) own.entity none⟩

def Condition.joins (c : Catalog) (own : Table) (f : Condition) : List Join :=
  (f.childJoin? own).toList ++ ((related? c own f.field).map Selection.Reference.toJoin).toList

def Step.joins (c : Catalog) (own : Table) : Step → List Join
  | .condition f => f.joins c own
  | .criterion _ | .malformed _ => []

theorem joined_joinChild {entity : String} (h : joinChild c q entity = .ok q') :
    Joined [⟨.ofEntity entity, Selection.childRowsOf (.ofEntity entity) q.table.entity none⟩] q
      q' := by
  obtain ⟨_, ⟨there, rfl⟩ | ⟨new, _, rfl⟩⟩ := joinChild_eq_ok.1 h
  · exact ⟨rfl, (if_pos there).symm⟩
  · exact ⟨rfl, (if_neg (Bool.not_eq_true _ ▸ new)).symm⟩

theorem joined_joinOther {f : Condition} (h : joinOther c q f = .ok q') :
    Joined (f.childJoin? q.table).toList q q' := by
  unfold joinOther at h
  unfold Condition.childJoin?
  split at h
  · next e named =>
    rw [named]
    exact joined_joinChild h
  · next unnamed =>
    cases h
    rw [unnamed]
    exact .refl q

theorem joined_resolveField {field : String} {entity : Option String} {column : Column}
    (h : resolveField c q field entity = .ok (column, q')) :
    Joined ((related? c q.table field).map Selection.Reference.toJoin).toList q q' := by
  unfold related?
  rcases resolveField_eq_ok.1 h with ⟨r, read, _, rfl⟩ | ⟨read, rfl, _⟩
  · rw [read]
    exact r.joined_join q
  · rw [read]
    exact .refl q'

theorem joined_applyCondition {f : Condition} (h : applyCondition c q f = .ok q') :
    Joined (f.joins c q.table) q q' := by
  obtain ⟨_, _, _, _, _, _, _, other, field, _, _, rfl⟩ := applyCondition_eq_ok.1 h
  have first := joined_joinOther other
  have second := joined_resolveField field
  rw [first.table] at second
  have both := first.trans second
  exact ⟨both.table, both.joins⟩

theorem joined_apply {steps : List Step} (h : steps.foldlM (applyStep c) q = .ok q') :
    Joined (steps.flatMap (Step.joins c q.table)) q q' := by
  induction steps generalizing q with
  | nil =>
    cases h
    exact .refl _
  | cons step steps ih =>
    rw [List.foldlM_cons] at h
    obtain ⟨a, applied, h⟩ := bind_eq_ok.1 h
    have first : Joined (step.joins c q.table) q a := by
      cases step with
      | condition f => exact joined_applyCondition applied
      | criterion r =>
        cases applied
        exact ⟨rfl, rfl⟩
      | malformed fault => cases applied
    have others := ih h
    rw [first.table] at others
    rw [List.flatMap_cons]
    exact first.trans others

end Filter

end ScopedQuery
