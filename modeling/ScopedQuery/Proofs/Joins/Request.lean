import ScopedQuery.Proofs.Joins.Demand
import ScopedQuery.Proofs.Rows.Rule

set_option autoImplicit false

namespace ScopedQuery

open Sql Outcome

open Query (Joined)

open Selection (Reference Item)

def Selection.Item.reference? : Item → Option Reference
  | .reference r => some r
  | .plain _ | .star _ | .position _ | .call _ | .child _ | .term _ => none

def Filter.Step.reference? (c : Catalog) (own : Table) : Filter.Step → Option Reference
  | .condition f => related? c own f.field
  | .criterion _ | .malformed _ => none

def Request.items (r : Request) (c : Catalog) (d : Dialect) (v : Viewer) (table : Table) (m : Memo) :
    Result (List Item) × Memo :=
  match r.mode with
  | .select => selectItems c d v table r.fields m
  | .update | .insert | .delete => (.ok [], m)

def Request.steps (r : Request) : List Filter.Step := (r.filters.map Filter.steps).getD []

def Request.references (r : Request) (c : Catalog) (own : Table) (items : List Item) :
    List Reference :=
  items.filterMap Item.reference? ++ r.steps.filterMap (Filter.Step.reference? c own)

def Request.demands (r : Request) (c : Catalog) (own : Table) (items : List Item) : List Join :=
  items.flatMap Item.joins ++ r.steps.flatMap (Filter.Step.joins c own)

variable {c : Catalog} {own : Table} {j : Join} {reference : Reference}

theorem Selection.Item.mem_joins {i : Item} :
    j ∈ i.joins ↔ ∃ reference, i.reference? = some reference ∧ j = reference.toJoin := by
  cases i <;> simp [joins, reference?]

theorem Filter.Step.mem_joins {step : Filter.Step} : j ∈ step.joins c own ↔
    (∃ reference, step.reference? c own = some reference ∧ j = reference.toJoin) ∨
      ∃ f, step = .condition f ∧ f.childJoin? own = some j := by
  cases step with
  | condition f =>
    rw [joins, Condition.joins, List.mem_append, Option.mem_toList, Option.mem_toList,
      Option.map_eq_some_iff]
    simp only [reference?, Step.condition.injEq, exists_eq_left', or_comm, eq_comm]
  | criterion r => simp [joins, reference?]
  | malformed fault => simp [joins, reference?]

namespace Request

variable {d : Dialect} {s : Settings} {v : Viewer} {r : Request} {m m' : Memo} {q q' : Query}
  {table : Table} {items : List Item}

theorem joined_filterRows (h : filterRows c r.filters q = .ok q') :
    Joined (r.steps.flatMap (Filter.Step.joins c q.table)) q q' := by
  unfold filterRows at h
  unfold steps
  split at h
  · next f given =>
    rw [given]
    exact Filter.joined_apply h
  · next none =>
    cases h
    rw [none]
    exact .refl q

theorem joined_arrange (h : arrange c r q = .ok q') :
    Joined (r.steps.flatMap (Filter.Step.joins c q.table)) q q' := by
  obtain ⟨filtered, ordered, limited, counted, filter, order, limit, offset, group⟩ := arrange_ok h
  have rest : Grows (fun _ => True) (fun _ => False) filtered q' :=
    (grows_orderRows (fun _ => trivial) (fun _ => trivial) order).trans <|
      (grows_withCount .limitTo limit).trans <| (grows_withCount .skip offset).trans <|
        (grows_withFlags r counted).trans
          (grows_groupRows (fun _ => trivial) (fun _ => trivial) group)
  have joined := (joined_filterRows filter).trans (.of_grows rest fun _ => id)
  rwa [List.append_nil] at joined

theorem joined_selectFields (h : selectFields c d v r table m = (.ok q, m')) :
    ∃ items, r.items c d v table m = (.ok items, m') ∧
      Joined (items.flatMap Selection.Item.joins) (.new r.mode table d) q := by
  unfold selectFields at h
  unfold items
  cases mode : r.mode with
  | select =>
    rw [mode] at h
    dsimp only at h
    rw [Prod.mk.injEq] at h
    obtain ⟨items, found, rfl⟩ := map_eq_ok.1 h.1
    exact ⟨items, Prod.ext found h.2, Selection.joined_selectAll items _⟩
  | update | insert | delete =>
    rw [mode] at h
    cases h
    exact ⟨[], rfl, .refl _⟩

theorem joins_of_build (h : r.build c s v m = (.ok q, m')) : r.target.resolve = .ok q.table ∧
    ∃ items, r.items c s.dialect v q.table m = (.ok items, m') ∧
      Joined (r.demands c q.table items) (.new r.mode q.table s.dialect) q := by
  obtain ⟨table, picked, asked, gate, selected, arranged, confined⟩ := build_ok h
  obtain ⟨items, found, picks⟩ := joined_selectFields selected
  have arranges := joined_arrange arranged
  rw [picks.table] at arranges
  have confines : q.table = asked.table ∧ q.joins = asked.joins := by
    obtain ⟨_, rfl⟩ := confine_ok confined
    exact ⟨rfl, rfl⟩
  have whole := picks.trans arranges
  have table : q.table = table := confines.1.trans whole.table
  rw [table]
  exact ⟨(passGate_ok gate).1, items, found, table, confines.2.trans whole.joins⟩

theorem origin_of_items (h : r.items c d v table m = (.ok items, m')) : ∀ i ∈ items,
    (∃ s ∈ r.fields, ∃ e ∈ s.toEntries, Selection.Denotes c table d e i) ∨
      (∃ name, i = .plain (table.column name)) ∨ ∃ child, i = .child child := by
  intro i mem
  have selected : selectItems c d v table r.fields m = (.ok items, m') := by
    unfold Request.items at h
    split at h
    · exact h
    all_goals
      cases h
      cases mem
  obtain ⟨parsed, read, narrowed⟩ := selectItems_ok selected
  have origin : ∀ i ∈ parsed, ∃ s ∈ r.fields, ∃ e ∈ s.toEntries, Selection.Denotes c table d e i := by
    intro i given
    obtain ⟨e, there, denotes⟩ := Selection.denotes_of_parse read i given
    cases fields : r.fields with
    | none =>
      rw [fields] at there
      cases there
    | some s =>
      rw [fields] at there
      exact ⟨s, rfl, e, there, denotes⟩
  split at narrowed
  · rcases Access.narrow_ok narrowed i mem with given | ⟨source, name, star, rfl⟩ |
      ⟨child, visible, _, rfl⟩
    · exact .inl (origin i given)
    · obtain ⟨_, _, _, _, denotes⟩ := origin _ star
      cases denotes
      exact .inr (.inl ⟨name, rfl⟩)
    · exact .inr (.inr ⟨_, rfl⟩)
  · cases narrowed
    exact .inl (origin i mem)

theorem mem_demands : j ∈ r.demands c own items ↔
    (∃ reference ∈ r.references c own items, j = reference.toJoin) ∨
      ∃ f, .condition f ∈ r.steps ∧ f.childJoin? own = some j := by
  unfold demands references
  simp only [List.mem_append, List.mem_flatMap, List.mem_filterMap, Item.mem_joins,
    Filter.Step.mem_joins]
  constructor
  · rintro (⟨i, there, reference, is, eq⟩ | ⟨step, there, ⟨reference, is, eq⟩ | ⟨f, rfl, named⟩⟩)
    · exact .inl ⟨reference, .inl ⟨i, there, is⟩, eq⟩
    · exact .inl ⟨reference, .inr ⟨step, there, is⟩, eq⟩
    · exact .inr ⟨f, there, named⟩
  · rintro (⟨reference, ⟨i, there, is⟩ | ⟨step, there, is⟩, eq⟩ | ⟨f, there, named⟩)
    · exact .inl ⟨i, there, reference, is, eq⟩
    · exact .inr ⟨step, there, .inl ⟨reference, is, eq⟩⟩
    · exact .inr ⟨_, there, .inr ⟨f, rfl, named⟩⟩

/-- A table is joined for references to it and for conditions that name its entity. -/
theorem isJoined_of_build (h : r.build c s v m = (.ok q, m')) :
    ∃ items, r.items c s.dialect v q.table m = (.ok items, m') ∧ ∀ table, q.isJoined table ↔
      (∃ reference ∈ r.references c q.table items, reference.table = table) ∨
        ∃ f j, .condition f ∈ r.steps ∧ f.childJoin? q.table = some j ∧ j.table = table := by
  obtain ⟨_, items, found, joined⟩ := joins_of_build h
  refine ⟨items, found, fun table => ?_⟩
  rw [joined.isJoined_iff rfl]
  simp only [mem_demands]
  constructor
  · rintro ⟨j, ⟨reference, mem, rfl⟩ | ⟨f, there, named⟩, rfl⟩
    · exact .inl ⟨reference, mem, rfl⟩
    · exact .inr ⟨f, j, there, named, rfl⟩
  · rintro (⟨reference, mem, rfl⟩ | ⟨f, j, there, named, rfl⟩)
    · exact ⟨reference.toJoin, .inl ⟨reference, mem, rfl⟩, rfl⟩
    · exact ⟨j, .inr ⟨f, there, named⟩, rfl⟩

theorem parsed_of_references (h : r.items c d v table m = (.ok items, m'))
    (mem : reference ∈ r.references c table items) :
    ∃ text, Reference.parse c table.entity text = .ok (some reference) := by
  rcases List.mem_append.1 mem with mem | mem
  · obtain ⟨i, there, is⟩ := List.mem_filterMap.1 mem
    cases i <;> cases is
    rcases origin_of_items h _ there with ⟨_, _, _, _, denotes⟩ | ⟨_, eq⟩ | ⟨_, eq⟩
    · cases denotes with
      | reference read => exact ⟨_, read⟩
    · cases eq
    · cases eq
  · obtain ⟨step, _, makes⟩ := List.mem_filterMap.1 mem
    cases step with
    | condition f =>
      refine ⟨f.field, ?_⟩
      change (Reference.parse c table.entity f.field).toOption.join = some reference at makes
      cases read : Reference.parse c table.entity f.field with
      | error fault =>
        rw [read] at makes
        cases makes
      | ok found =>
        rw [read] at makes
        exact congrArg Except.ok makes
    | criterion _ => cases makes
    | malformed _ => cases makes

end Request

end ScopedQuery
