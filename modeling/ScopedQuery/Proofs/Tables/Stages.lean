import ScopedQuery.Proofs.Joins.Request
import ScopedQuery.Proofs.Rows.Material
import ScopedQuery.Proofs.Sql.Occurrence

set_option autoImplicit false

namespace ScopedQuery

open Sql Outcome

open Clause (ColumnText)

namespace Filter

variable {c : Catalog} {own : Table} {q q' : Query} {column : Column}

def Condition.column? (c : Catalog) (own : Table) (f : Condition) : Option Column :=
  match related? c own f.field with
  | some r => some r.column
  | none => (ColumnText.parse? f.field.toList).bind
      (ColumnText.resolve? (homeTable own (f.other? own)))

inductive Step.Adds (c : Catalog) (own : Table) : Step → Criterion → Prop
  | condition {f : Condition} {op : Operator} {column : Column} {value : Operand}
    {criterion : Criterion} (tests : f.column? c own = some column)
    (made : criterionOf c op column value = .ok criterion) : Adds c own (.condition f) criterion
  | criterion (r : Criterion) : Adds c own (.criterion r) r

theorem joinOther_ok {f : Condition} (h : joinOther c q f = .ok q') :
    ∃ joins, q' = { q with joins := joins } := by
  unfold joinOther at h
  split at h
  · obtain ⟨_, ⟨_, rfl⟩ | ⟨_, _, rfl⟩⟩ := joinChild_eq_ok.1 h
    · exact ⟨_, rfl⟩
    · exact ⟨_, rfl⟩
  · cases h
    exact ⟨_, rfl⟩

theorem column?_of_resolveField {f : Condition}
    (h : resolveField c q f.field (f.other? q.table) = .ok (column, q')) :
    f.column? c q.table = some column ∧ ∃ joins, q' = { q with joins := joins } := by
  unfold Condition.column? related?
  rcases resolveField_eq_ok.1 h with ⟨r, read, rfl, rfl⟩ | ⟨read, rfl, w, written, resolved⟩
  · rw [read]
    refine ⟨rfl, ?_⟩
    unfold Selection.Reference.join Query.ensureJoin
    split
    · exact ⟨_, rfl⟩
    · exact ⟨_, rfl⟩
  · rw [read]
    exact ⟨Option.bind_eq_some_iff.2 ⟨w, written, resolved⟩, _, rfl⟩

theorem applyStep_ok {step : Step} (h : applyStep c q step = .ok q') : ∃ joins criterion,
    q' = { q with joins := joins, wheres := q.wheres ++ [criterion] } ∧
      step.Adds c q.table criterion := by
  cases step with
  | criterion r =>
    cases h
    exact ⟨q.joins, r, rfl, .criterion r⟩
  | malformed fault => cases h
  | condition f =>
    obtain ⟨_, _, _, _, _, criterion, _, other, field, _, made, rfl⟩ := applyCondition_eq_ok.1 h
    obtain ⟨_, rfl⟩ := joinOther_ok other
    obtain ⟨tests, joins, rfl⟩ := column?_of_resolveField field
    exact ⟨joins, criterion, rfl, .condition tests made⟩

theorem applySteps_ok {steps : List Step} (h : steps.foldlM (applyStep c) q = .ok q') :
    ∃ joins criteria, q' = { q with joins := joins, wheres := q.wheres ++ criteria } ∧
      List.Forall₂ (Step.Adds c q.table) steps criteria := by
  induction steps generalizing q with
  | nil =>
    cases h
    exact ⟨_, [], by rw [List.append_nil], .nil⟩
  | cons step steps ih =>
    rw [List.foldlM_cons] at h
    obtain ⟨a, applied, h⟩ := bind_eq_ok.1 h
    obtain ⟨_, criterion, rfl, first⟩ := applyStep_ok applied
    obtain ⟨joins, criteria, rfl, others⟩ := ih h
    refine ⟨joins, criterion :: criteria, ?_, .cons first others⟩
    rw [List.append_assoc, List.singleton_append]

theorem mentions_criterionOf {op : Operator} {tested : Column} {value : Operand}
    {criterion : Criterion} (h : criterionOf c op tested value = .ok criterion) :
    criterion.Mentions column ↔ column = tested := by
  have operand : ¬ value.term.Mentions column := by
    cases value <;> simp [Operand.term]
  have members : ∀ t ∈ Operator.memberValues value, ¬ t.Mentions column :=
    Term.not_mentions_of_literals fun _ => literal_of_mem_memberValues
  cases makes_of_criterionOf h with
  | lineage _ => simp [Column.term, Term.text]
  | null _ _ | isSet _ _ | between _ => simp [Column.term]
  | compare _ _ | like _ _ | regex _ => simp [Column.term, operand]
  | member _ _ => simpa [Column.term] using fun t mem inside => absurd inside (members t mem)

end Filter

theorem Access.material_own (c : Catalog) (table : Table) (v : Viewer) :
    Access.Material c table v fun criterion =>
      ∀ column, criterion.Mentions column → column.table = table where
  owner column mentions := by
    rw [Criterion.mentions_equals, Term.text, or_iff_left (Term.not_mentions_literal _)] at mentions
    rw [mentions]
    rfl
  isNull field column mentions := by
    unfold Column.isNull Column.term at mentions
    rw [Criterion.mentions_isNull, Term.mentions_column] at mentions
    rw [mentions]
    rfl
  oneOf field names column mentions := by
    rw [Criterion.mentions_oneOf.1 mentions]
    rfl
  provided sql _ column mentions := absurd mentions (Criterion.not_mentions_raw sql)
  all items each column mentions := by
    obtain ⟨criterion, mem, inside⟩ := Criterion.mentions_all.1 mentions
    exact each criterion mem column inside
  or a b ha hb column mentions := (Criterion.mentions_or.1 mentions).elim (ha column) (hb column)

namespace Request

variable {c : Catalog} {s : Settings} {v : Viewer} {r : Request} {m m' : Memo} {q q' : Query}

/-- Each list of a query is made by one stage, and no other stage behind the selected fields adds to
it. -/
theorem parts_of_arrange (h : arrange c r q = .ok q') : ∃ criteria orders groups,
    (q'.wheres = q.wheres ++ criteria ∧
      List.Forall₂ (Filter.Step.Adds c q.table) r.steps criteria) ∧
    (q'.orderBys = q.orderBys ++ orders ∧
      List.Forall₂ (fun item o => item.term? q.table = some o.term) (orderItems r.orderBy) orders) ∧
    (q'.groupBys = q.groupBys ++ groups ∧
      List.Forall₂ (fun item t => item.term? q.table = some t) (groupItems r.groupBy) groups) := by
  obtain ⟨filtered, ordered, limited, counted, filter, order, limit, offset, group⟩ := arrange_ok h
  have filters : ∃ joins criteria,
      filtered = { q with joins := joins, wheres := q.wheres ++ criteria } ∧
        List.Forall₂ (Filter.Step.Adds c q.table) r.steps criteria := by
    unfold filterRows at filter
    unfold steps
    split at filter
    · next f given =>
      rw [given]
      exact Filter.applySteps_ok filter
    · next none =>
      cases filter
      rw [none]
      exact ⟨_, [], by rw [List.append_nil], .nil⟩
  obtain ⟨joins, criteria, rfl, tested⟩ := filters
  obtain ⟨orders, rfl, means⟩ := orderRows_ok order
  obtain ⟨groups, rfl, means'⟩ := groupRows_ok group
  have counts : Grows (fun _ => False) (fun _ => False) _ (withFlags r counted) :=
    (grows_withCount .limitTo limit).trans <| (grows_withCount .skip offset).trans <|
      grows_withFlags r counted
  refine ⟨criteria, orders, groups, ⟨counts.wheres.eq_self fun _ => id, tested⟩,
    ⟨counts.orderBys.eq_self fun _ => id, means⟩, ?_, ?_⟩
  · exact congrArg (· ++ groups) (counts.groupBys.eq_self fun _ => id)
  · rw [counts.table] at means'
    exact means'

theorem frame_selectAll (items : List Selection.Item) (q : Query) :
    (Selection.selectAll q items).wheres = q.wheres ∧
      (Selection.selectAll q items).orderBys = q.orderBys ∧
      (Selection.selectAll q items).groupBys = q.groupBys := by
  have all : (items.foldl Selection.Item.select q).wheres = q.wheres ∧
      (items.foldl Selection.Item.select q).orderBys = q.orderBys ∧
      (items.foldl Selection.Item.select q).groupBys = q.groupBys := by
    induction items generalizing q with
    | nil => exact ⟨rfl, rfl, rfl⟩
    | cons i items ih =>
      have first : (i.select q).wheres = q.wheres ∧ (i.select q).orderBys = q.orderBys ∧
          (i.select q).groupBys = q.groupBys := by
        cases i with
        | reference r =>
          unfold Selection.Item.select Selection.Reference.select Selection.Reference.join
            Query.ensureJoin
          dsimp only
          split
          · exact ⟨rfl, rfl, rfl⟩
          · exact ⟨rfl, rfl, rfl⟩
        | plain _ | star _ | position _ | call _ | child _ | term _ => exact ⟨rfl, rfl, rfl⟩
      rw [List.foldl_cons, ← first.1, ← first.2.1, ← first.2.2]
      exact ih _
  unfold Selection.selectAll
  dsimp only
  split
  · exact all
  · exact all

theorem parts_of_build (h : r.build c s v m = (.ok q, m')) : ∃ criteria rules,
    q.wheres = criteria ++ rules ∧ List.Forall₂ (Filter.Step.Adds c q.table) r.steps criteria ∧
    (∀ criterion ∈ rules, ∀ column, criterion.Mentions column → column.table = q.table) ∧
    List.Forall₂ (fun item o => item.term? q.table = some o.term) (orderItems r.orderBy)
      q.orderBys ∧
    List.Forall₂ (fun item t => item.term? q.table = some t) (groupItems r.groupBy)
      q.groupBys := by
  obtain ⟨table, picked, asked, _, selected, arranged, confined⟩ := build_ok h
  have fresh : picked.wheres = [] ∧ picked.orderBys = [] ∧ picked.groupBys = [] := by
    rcases selectFields_ok selected with ⟨items, _, rfl⟩ | rfl
    · exact frame_selectAll items _
    · exact ⟨rfl, rfl, rfl⟩
  obtain ⟨criteria, orders, groups, ⟨wheres, tested⟩, ⟨orderBys, means⟩, groupBys, means'⟩ :=
    parts_of_arrange arranged
  rw [fresh.1, List.nil_append] at wheres
  rw [fresh.2.1, List.nil_append] at orderBys
  rw [fresh.2.2, List.nil_append] at groupBys
  have same := table_of_arrange arranged
  rw [← same] at tested means means'
  rw [← orderBys] at means
  rw [← groupBys] at means'
  obtain ⟨rules, rfl, own⟩ := (Access.material_own c asked.table v).wheres rfl confined
  exact ⟨criteria, rules, congrArg (· ++ rules) wheres, tested, own, means, means'⟩

end Request

end ScopedQuery
