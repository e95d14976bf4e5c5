import Mathlib.Logic.Relation
import ScopedQuery.Proofs.Clause.Spelling
import ScopedQuery.Proofs.Request.Growth

set_option autoImplicit false

namespace ScopedQuery

open Sql Outcome Relation

namespace Sql.Query

variable (q : Query) (table : Table) (on : Criterion)

theorem isJoined_ensureJoin : (q.ensureJoin table on).isJoined table := by
  unfold ensureJoin
  split
  · assumption
  · simp [isJoined, leftJoin]

theorem frame_ensureJoin :
    (q.ensureJoin table on).table = q.table ∧ (q.ensureJoin table on).selects = q.selects := by
  unfold ensureJoin
  split <;> exact ⟨rfl, rfl⟩

end Sql.Query

namespace Filter

/-- The columns that a filter can put to a test: written ones, of the queried table or of a child
entity that is joined, and those of related records that are joined. -/
inductive Tests (c : Catalog) (q : Query) : Column → Prop
  | written {home : Table} {cs : List Char} {w : Clause.ColumnText} {column : Column}
    (reached : home = q.table ∨ ∃ entity, Clause.isEntityName entity.toList ∧
      home = .ofEntity entity ∧ q.isJoined home)
    (read : Clause.ColumnText.parse? cs = some w) (resolved : w.resolve? home = some column) :
    Tests c q column
  | related {text : String} {r : Selection.Reference}
    (read : Selection.Reference.parse c q.table.entity text = .ok (some r))
    (joined : q.isJoined r.table) : Tests c q r.column

end Filter

namespace Request

inductive Step (c : Catalog) (r : Request) : Query → Query → Prop
  | child {q : Query} {entity : String} (name : Clause.isEntityName entity.toList)
    (children : c.isChildEntity entity = .ok true) :
    Step c r q (q.leftJoin (.ofEntity entity)
      (Selection.childRowsOf (.ofEntity entity) q.table.entity none))
  | related {q : Query} {text : String} {reference : Selection.Reference}
    (read : Selection.Reference.parse c q.table.entity text = .ok (some reference)) :
    Step c r q (reference.join q)
  | condition {q : Query} {column : Column} {token : String} {op : Filter.Operator}
    {value : Filter.Operand} {criterion : Criterion} (tests : Filter.Tests c q column)
    (parsed : Filter.Operator.parse token = .ok op)
    (made : Filter.criterionOf c op column value = .ok criterion) :
    Step c r q (q.restrict criterion)
  | ready {q : Query} {f : Filter} {criterion : Criterion} (given : r.filters = some f)
    (mem : .criterion criterion ∈ f.steps) : Step c r q (q.restrict criterion)
  | order {q : Query} {cs : List Char} {item : Clause.Item} {t : Term} (d : Direction)
    (read : Clause.Item.parse? cs = some item) (term : item.term? q.table = some t) :
    Step c r q (q.orderBy t d)
  | group {q : Query} {cs : List Char} {item : Clause.Item} {t : Term}
    (read : Clause.Item.parse? cs = some item) (term : item.term? q.table = some t) :
    Step c r q (q.groupBy t)
  | limit {q : Query} (n : Nat) : Step c r q (q.limitTo n)
  | offset {q : Query} (n : Nat) : Step c r q (q.skip n)
  | flags {q : Query} : Step c r q (withFlags r q)

variable {c : Catalog} {r : Request} {q q' : Query}

/-- What every step keeps holds behind all of them. -/
theorem invariant_of_steps {P : Query → Prop} (h : ReflTransGen (Step c r) q q')
    (step : ∀ a b, Step c r a b → P a → P b) (start : P q) : P q' := by
  induction h with
  | refl => exact start
  | tail _ last ih => exact step _ _ last ih

section Filter

open ScopedQuery.Filter

theorem steps_of_joinOther {f : Condition} (h : joinOther c q f = .ok q') :
    (∀ e ∈ f.other? q.table, Clause.isEntityName e.toList ∧ q'.isJoined (.ofEntity e)) ∧
      ReflTransGen (Step c r) q q' := by
  unfold joinOther at h
  split at h
  · next e named =>
    rw [named]
    obtain ⟨proper, ⟨joined, rfl⟩ | ⟨_, children, rfl⟩⟩ := joinChild_eq_ok.1 h
    · refine ⟨?_, .refl⟩
      rintro _ ⟨⟩
      exact ⟨proper, joined⟩
    · refine ⟨?_, .single (.child proper children)⟩
      rintro _ ⟨⟩
      exact ⟨proper, by simp [Query.isJoined, Query.leftJoin]⟩
  · next unnamed =>
    cases h
    rw [unnamed]
    exact ⟨nofun, .refl⟩

theorem steps_of_resolveField {field : String} {entity : Option String} {column : Column}
    (reached : ∀ e ∈ entity, Clause.isEntityName e.toList ∧ q.isJoined (.ofEntity e))
    (h : resolveField c q field entity = .ok (column, q')) :
    Tests c q' column ∧ ReflTransGen (Step c r) q q' := by
  have home : homeTable q.table entity = q.table ∨ ∃ e, Clause.isEntityName e.toList ∧
      homeTable q.table entity = .ofEntity e ∧ q.isJoined (homeTable q.table entity) := by
    cases entity with
    | none => exact .inl rfl
    | some e => exact .inr ⟨e, (reached e rfl).1, rfl, (reached e rfl).2⟩
  rcases resolveField_eq_ok.1 h with ⟨reference, read, rfl, rfl⟩ | ⟨_, rfl, w, read, resolved⟩
  · have same : (reference.join q).table = q.table := (q.frame_ensureJoin _ _).1
    exact ⟨.related (by rw [same]; exact read) (q.isJoined_ensureJoin _ _),
      .single (.related read)⟩
  · exact ⟨.written home read resolved, .refl⟩

theorem steps_of_applyCondition {f : Condition} (h : applyCondition c q f = .ok q') :
    ReflTransGen (Step c r) q q' := by
  obtain ⟨_, joined, _, _, _, _, parsed, other, field, _, made, rfl⟩ := applyCondition_eq_ok.1 h
  obtain ⟨reached, first⟩ := steps_of_joinOther (r := r) other
  obtain ⟨tests, second⟩ := steps_of_resolveField (r := r) reached field
  exact (first.trans second).tail (.condition tests parsed made)

theorem steps_of_filterRows (h : filterRows c r.filters q = .ok q') :
    ReflTransGen (Step c r) q q' := by
  unfold filterRows at h
  split at h
  · next f given =>
    refine foldlM_invariant (P := ReflTransGen (Step c r) q) h ?_ .refl
    intro step mem b b' before applied
    cases step with
    | criterion criterion =>
      cases applied
      exact before.tail (.ready given mem)
    | malformed fault => cases applied
    | condition f => exact before.trans (steps_of_applyCondition applied)
  · cases h
    exact .refl

end Filter

section Clauses

theorem parse?_of_parseOrderItem {entry : List Char} {o : Clause.OrderItem}
    (h : Clause.parseOrderItem entry = .ok o) : ∃ word, Clause.Item.parse? word = some o.item := by
  unfold Clause.parseOrderItem at h
  dsimp only at h
  split at h
  · next word _ =>
    obtain ⟨i, read, h⟩ := bind_eq_ok.1 h
    cases h
    split at read
    · next parsed =>
      cases read
      exact ⟨word, parsed⟩
    · cases read
  · next word direction _ =>
    obtain ⟨i, read, h⟩ := bind_eq_ok.1 h
    split at read
    · next parsed =>
      cases read
      split at h
      · cases h
        exact ⟨word, parsed⟩
      · cases h
    · cases read
  · cases h

theorem steps_of_orderRows (h : orderRows r.orderBy q = .ok q') : ReflTransGen (Step c r) q q' := by
  unfold orderRows at h
  split at h
  · cases h
    exact .refl
  · obtain ⟨items, read, h⟩ := bind_eq_ok.1 h
    have written : ∀ o ∈ items, ∃ word, Clause.Item.parse? word = some o.item := by
      intro o mem
      unfold Clause.parseOrderBy at read
      split at read
      · cases read
        cases mem
      · obtain ⟨entry, _, parsed⟩ := mem_of_mapM read mem
        exact parse?_of_parseOrderItem parsed
    refine foldlM_invariant (P := ReflTransGen (Step c r) q) h ?_ .refl
    intro o mem b b' before step
    obtain ⟨word, parsed⟩ := written o mem
    split at step
    · next term =>
      cases step
      exact before.tail (.order _ parsed term)
    · cases step

theorem steps_of_groupRows (h : groupRows r.groupBy q = .ok q') : ReflTransGen (Step c r) q q' := by
  unfold groupRows at h
  split at h
  · cases h
    exact .refl
  · obtain ⟨items, read, h⟩ := bind_eq_ok.1 h
    refine foldlM_invariant (P := ReflTransGen (Step c r) q) h ?_ .refl
    intro item mem b b' before step
    obtain ⟨entry, _, parsed⟩ := mem_of_mapM read mem
    split at parsed
    · next found =>
      cases parsed
      split at step
      · next term =>
        cases step
        exact before.tail (.group found term)
      · cases step
    · cases parsed

theorem steps_of_withCount {count : Option Int64} {fault : Int64 → QueryError}
    {set : Query → Nat → Query} (each : ∀ q n, Step c r q (set q n))
    (h : withCount count fault set q = .ok q') : ReflTransGen (Step c r) q q' := by
  unfold withCount at h
  split at h
  · cases h
    exact .refl
  split at h
  · cases h
  split at h
  · cases h
    exact .refl
  · cases h
    exact .single (each _ _)

end Clauses

theorem steps_of_arrange (h : arrange c r q = .ok q') : ReflTransGen (Step c r) q q' := by
  obtain ⟨filtered, ordered, limited, counted, filter, order, limit, offset, group⟩ := arrange_ok h
  have filters : ReflTransGen (Step c r) q filtered := steps_of_filterRows filter
  have orders : ReflTransGen (Step c r) filtered ordered := steps_of_orderRows order
  have limits : ReflTransGen (Step c r) ordered limited :=
    steps_of_withCount (fun _ n => .limit n) limit
  have offsets : ReflTransGen (Step c r) limited counted :=
    steps_of_withCount (fun _ n => .offset n) offset
  have groups : ReflTransGen (Step c r) (withFlags r counted) q' := steps_of_groupRows group
  exact (((filters.trans orders).trans limits).trans offsets).trans (.head .flags groups)

theorem Step.frame (h : Step c r q q') : q'.table = q.table ∧ q'.selects = q.selects := by
  cases h with
  | related read => exact q.frame_ensureJoin _ _
  | flags =>
    unfold withFlags
    split_ifs <;> exact ⟨rfl, rfl⟩
  | child _ _ | condition _ _ _ | ready _ _ | order _ _ _ | group _ _ | limit _ | offset _ =>
    exact ⟨rfl, rfl⟩

end Request

end ScopedQuery
