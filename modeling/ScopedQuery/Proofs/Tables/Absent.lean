import ScopedQuery.Proofs.Columns.Selected
import ScopedQuery.Proofs.Joins.Way
import ScopedQuery.Proofs.Names.Request
import ScopedQuery.Proofs.Tables.Stages

set_option autoImplicit false

/-!
The tables that a built query refers to. References, stars, named child entities and the rule for
the viewer keep to the queried table and to tables that are joined. A table that is written in front
of a column is taken as it stands: it has to look like a physical table, but nothing joins it, and
nothing asks whether it is joined.
-/

namespace ScopedQuery

open Sql Outcome

open Clause (ColumnText)

open Selection (Reference Item)

def Selection.Item.written : Item → List Column
  | .plain column => [column]
  | .call f => f.columns
  | .star _ | .position _ | .reference _ | .child _ | .term _ => []

/-- Whether a request writes a table in front of a column: of a selected one or of an argument, of
the field of a condition, or of what rows are ordered or grouped by. -/
inductive Request.Writes (r : Request) (c : Catalog) (own : Table) (items : List Item) (t : Table) :
    Prop
  | selected {i : Item} {column : Column} (mem : i ∈ items) (inside : column ∈ i.written)
    (table : column.table = t) : Writes r c own items t
  | tested {f : Filter.Condition} {w : ColumnText} (mem : .condition f ∈ r.steps)
    (other : Filter.related? c own f.field = none) (read : ColumnText.parse? f.field.toList = some w)
    (table : w.table = some t.name) : Writes r c own items t
  | ordered {w : ColumnText} (mem : .column w ∈ orderItems r.orderBy)
    (table : w.table = some t.name) : Writes r c own items t
  | grouped {w : ColumnText} (mem : .column w ∈ groupItems r.groupBy)
    (table : w.table = some t.name) : Writes r c own items t

variable {c : Catalog} {own t : Table} {column : Column}

theorem Clause.ColumnText.table_of_resolve? {w : ColumnText} (h : w.resolve? own = some column) :
    column.table = (w.table.map Table.mk).getD own := by
  unfold resolve? at h
  split at h
  · next bare =>
    cases h
    rw [bare]
    rfl
  · next name qualified =>
    obtain ⟨physical, found, rfl⟩ := Option.map_eq_some_iff.1 h
    unfold physicalTable? at found
    rw [Option.eq_some_of_filter_eq_some found]
    rfl

theorem Clause.Item.refers_iff {item : Clause.Item} {tm : Term} (means : item.term? own = some tm)
    (other : t ≠ own) : tm.Refers t ↔ ∃ w, item = .column w ∧ w.table = some t.name := by
  unfold Term.Refers
  cases item with
  | position n =>
    cases means
    simp
  | column w =>
    obtain ⟨column, resolved, rfl⟩ := Option.map_eq_some_iff.1 means
    have table := ColumnText.table_of_resolve? resolved
    simp only [Term.mentions_column, exists_eq_left, table, Clause.Item.column.injEq,
      exists_eq_left']
    cases written : w.table with
    | none => simpa using other.symm
    | some name =>
      obtain ⟨physical⟩ := t
      simp

theorem Selection.table_of_childRowsOf {child : Table} {owner : String} {field : Option String}
    (h : (childRowsOf child owner field).Mentions column) :
    column.table = child ∨ column.table = .ofEntity owner := by
  rw [childRowsOf_eq, Criterion.mentions_conj] at h
  obtain ⟨criterion, mem, inside⟩ := h
  simp only [List.cons_append, List.nil_append, List.mem_cons, Option.mem_toList,
    Option.map_eq_some_iff] at mem
  rcases mem with rfl | rfl | ⟨f, _, rfl⟩
  · simp only [Criterion.mentions_equals, Column.term, Term.mentions_column] at inside
    exact inside.imp (congrArg Column.table) (congrArg Column.table)
  · simp only [Criterion.mentions_equals, Term.text, Term.not_mentions_literal, or_false] at inside
    exact .inl (congrArg Column.table inside)
  · simp only [Criterion.mentions_equals, Term.text, Term.not_mentions_literal, or_false] at inside
    exact .inl (congrArg Column.table inside)

theorem Selection.Reference.table_of_joinCriterion {r : Reference}
    (h : r.joinCriterion.Mentions column) :
    column.table = r.table ∨ column.table = .ofEntity r.owner := by
  unfold joinCriterion at h
  split at h
  · simp only [Criterion.mentions_equals, Column.term, Term.mentions_column] at h
    exact h.imp (congrArg Column.table) (congrArg Column.table)
  · exact table_of_childRowsOf h

theorem Filter.Condition.childJoin?_own {f : Filter.Condition} {j : Join}
    (h : f.childJoin? own = some j) (inside : j.on.Mentions column) :
    column.table = j.table ∨ column.table = .ofEntity own.entity := by
  obtain ⟨e, _, rfl⟩ := Option.map_eq_some_iff.1 h
  have about : (Selection.childRowsOf (.ofEntity e) own.entity none).Mentions column := inside
  exact Selection.table_of_childRowsOf about

/-- A condition refers to a table that is neither queried nor joined for it where its field is no
reference and writes the table. -/
theorem Filter.Step.refers_iff {step : Filter.Step} {criterion : Criterion}
    (adds : step.Adds c own criterion) (ready : ∀ given, step ≠ .criterion given) (other : t ≠ own)
    (apart : ∀ j ∈ step.joins c own, j.table ≠ t) : criterion.Refers t ↔
      ∃ f w, step = .condition f ∧ related? c own f.field = none ∧
        ColumnText.parse? f.field.toList = some w ∧ w.table = some t.name := by
  cases adds with
  | criterion _ => exact absurd rfl (ready _)
  | @condition f op tested value _ tests made =>
    have refers : criterion.Refers t ↔ tested.table = t := by
      unfold Criterion.Refers
      simp only [mentions_criterionOf made, exists_eq_left]
    rw [refers]
    simp only [Step.condition.injEq, exists_and_left, exists_eq_left']
    unfold Condition.column? at tests
    cases reference : related? c own f.field with
    | some r =>
      rw [reference] at tests
      cases tests
      have joined : r.toJoin ∈ (Step.condition f).joins c own := by
        simp [joins, Condition.joins, reference]
      have away : r.column.table ≠ t := apart _ joined
      simpa using away
    | none =>
      rw [reference] at tests
      obtain ⟨w, parsed, resolved⟩ := Option.bind_eq_some_iff.1 tests
      rw [ColumnText.table_of_resolve? resolved, parsed]
      simp only [Option.some.injEq, true_and, exists_eq_left']
      cases written : w.table with
      | some name =>
        obtain ⟨physical⟩ := t
        simp
      | none =>
        cases named : f.other? own with
        | none => simpa [homeTable] using other.symm
        | some e =>
          have joined : ⟨.ofEntity e, Selection.childRowsOf (.ofEntity e) own.entity none⟩ ∈
              (Step.condition f).joins c own := by
            simp [joins, Condition.joins, Condition.childJoin?, named]
          simpa [homeTable] using apart _ joined

namespace Request

variable {d : Dialect} {s : Settings} {v : Viewer} {r : Request} {m m' : Memo} {q : Query}
  {items : List Item}

theorem written_of_item {i : Item} {tm : Term} (textual : ∀ s ∈ r.fields, s.Textual)
    (found : r.items c d v own m = (.ok items, m')) (mem : i ∈ items) (shown : i.term? = some tm)
    (mentions : tm.Mentions column) : column ∈ i.written ∨
      ∃ reference, i = .reference reference ∧ column.table = reference.table := by
  cases i with
  | plain c =>
    cases shown
    rw [Term.mentions_column.1 mentions]
    exact .inl (List.mem_singleton_self c)
  | star source =>
    cases shown
    exact absurd mentions (Term.not_mentions_star _)
  | position n =>
    cases shown
    exact absurd mentions (Term.not_mentions_position n)
  | call f =>
    cases shown
    rcases origin_of_items found _ mem with ⟨_, _, _, _, denotes⟩ | ⟨_, eq⟩ | ⟨_, eq⟩
    · exact .inl (Access.readable_of_denotes denotes column mentions)
    · cases eq
    · cases eq
  | reference reference =>
    cases shown
    rw [Term.mentions_column.1 mentions]
    exact .inr ⟨reference, rfl, rfl⟩
  | child child => cases shown
  | term ready =>
    rcases origin_of_items found _ mem with ⟨s, given, e, there, denotes⟩ | ⟨_, eq⟩ | ⟨_, eq⟩
    · cases denotes
      exact absurd there (textual s given ready)
    · cases eq
    · cases eq

section Parts

variable (other : t ≠ own) (apart : ∀ j ∈ r.demands c own items, j.table ≠ t)

include other apart

theorem refers_selects (textual : ∀ s ∈ r.fields, s.Textual)
    (found : r.items c d v own m = (.ok items, m'))
    (selects : q.selects = if Selection.terms items = [] then [(own.column "name").term]
      else Selection.terms items) :
    (∃ tm ∈ q.selects, tm.Refers t) ↔ ∃ i ∈ items, ∃ column ∈ i.written, column.table = t := by
  rw [selects]
  constructor
  · rintro ⟨tm, mem, column, mentions, home⟩
    split at mem
    · rw [List.mem_singleton.1 mem] at mentions
      rw [Term.mentions_column.1 mentions] at home
      exact absurd home.symm other
    · obtain ⟨i, there, shown⟩ := Selection.mem_terms.1 mem
      rcases written_of_item textual found there shown mentions with inside | ⟨reference, rfl, table⟩
      · exact ⟨i, there, column, inside, home⟩
      · have asked : reference.toJoin ∈ r.demands c own items :=
          List.mem_append_left _ (List.mem_flatMap.2 ⟨_, there, List.mem_singleton_self _⟩)
        exact absurd (table.symm.trans home) (apart _ asked)
  · rintro ⟨i, mem, column, inside, home⟩
    have shown : ∃ tm, i.term? = some tm ∧ tm.Mentions column := by
      cases i with
      | plain c =>
        rw [List.mem_singleton.1 inside]
        exact ⟨_, rfl, .itself⟩
      | call f => exact ⟨_, rfl, Term.mentions_of_mem_columns f.term inside⟩
      | star _ | position _ | reference _ | child _ | term _ => cases inside
    obtain ⟨tm, shown, mentions⟩ := shown
    have there : tm ∈ Selection.terms items := Selection.mem_terms.2 ⟨i, mem, shown⟩
    rw [if_neg (List.ne_nil_of_mem there)]
    exact ⟨tm, there, column, mentions, home⟩

theorem not_refers_join (home : .ofEntity own.entity = own)
    (found : r.items c d v own m = (.ok items, m')) :
    ∀ j ∈ r.demands c own items, ¬ j.on.Refers t := by
  rintro j asked ⟨column, inside, rfl⟩
  have owned : column.table = j.table ∨ column.table = .ofEntity own.entity := by
    rcases mem_demands.1 asked with ⟨reference, there, rfl⟩ | ⟨f, _, named⟩
    · obtain ⟨text, parsed⟩ := parsed_of_references found there
      rw [← (Reference.leads_of_parse parsed).1]
      exact Reference.table_of_joinCriterion inside
    · exact Filter.Condition.childJoin?_own named inside
  rw [home] at owned
  exact owned.elim (fun same => apart j asked same.symm) other

theorem refers_criteria {criteria : List Criterion} (textual : r.Textual)
    (tested : List.Forall₂ (Filter.Step.Adds c own) r.steps criteria) :
    (∃ criterion ∈ criteria, criterion.Refers t) ↔ ∃ step ∈ r.steps, ∃ f w,
      step = .condition f ∧ Filter.related? c own f.field = none ∧
        ColumnText.parse? f.field.toList = some w ∧ w.table = some t.name := by
  have ready : ∀ step ∈ r.steps, ∀ given, step ≠ .criterion given := by
    rintro _ mem given rfl
    unfold steps at mem
    cases filters : r.filters with
    | none =>
      rw [filters] at mem
      cases mem
    | some f =>
      rw [filters] at mem
      obtain ⟨j, rfl⟩ := textual.filters f filters
      exact Filter.criterion_not_mem_stepsOfJson given j mem
  refine exists_iff tested fun step mem criterion _ adds => ?_
  exact Filter.Step.refers_iff adds (ready step mem) other fun j there =>
    apart j (List.mem_append_right _ (List.mem_flatMap.2 ⟨step, mem, there⟩))

end Parts

/-- Of absent tables, what is built for a document refers to those, and only to those, that the
document writes in front of a column. -/
theorem refers_of_document {j : Json} (read : ofJson j = .ok r) (selecting : r.mode = .select)
    (h : r.build c s v m = (.ok q, m')) :
    ∃ items, selectItems c s.dialect v q.table r.fields m = (.ok items, m') ∧
      ∀ t, t ≠ q.table → q.isJoined t = false →
        (q.Refers t ↔ r.Writes c q.table items t) := by
  have textual := textual_of_ofJson read
  obtain ⟨resolved, items, found, joined⟩ := joins_of_build h
  have home := (namesTable_of_ofJson (c := c) read resolved).ofEntity_entity
  obtain ⟨_, items', picked, selects⟩ := selects_of_build selecting h
  obtain rfl : items' = items := by
    unfold Request.items at found
    rw [selecting] at found
    cases picked.symm.trans found
    rfl
  obtain ⟨criteria, rules, wheres, tested, own, orders, groups⟩ := parts_of_build h
  refine ⟨items', picked, fun t other absent => ?_⟩
  have apart : ∀ j ∈ r.demands c q.table items', j.table ≠ t := by
    rintro j asked rfl
    rw [(joined.isJoined_iff rfl).2 ⟨j, asked, rfl⟩] at absent
    cases absent
  have inSelects := refers_selects other apart textual.fields found selects
  have inJoins : ¬ ∃ j ∈ q.joins, j.on.Refers t := by
    rintro ⟨j, mem, refers⟩
    rw [joined.joins] at mem
    have asked := (Join.mem_of_mem_extend mem).resolve_left List.not_mem_nil
    exact not_refers_join other apart home found j asked refers
  have inRules : ¬ ∃ criterion ∈ rules, criterion.Refers t := by
    rintro ⟨criterion, mem, column, inside, rfl⟩
    exact other (own criterion mem column inside)
  have inCriteria := refers_criteria other apart textual tested
  have inOrders := exists_iff orders fun item _ o _ means => Clause.Item.refers_iff means other
  have inGroups := exists_iff groups fun item _ tm _ means => Clause.Item.refers_iff means other
  -- Of the five lists of a query, joins never count, and of the conditions the filters' ones only.
  rw [Query.refers_iff, inSelects, wheres, inOrders, inGroups, or_iff_right inJoins]
  simp only [List.mem_append, or_and_right, exists_or]
  rw [inCriteria, or_iff_left inRules]
  constructor
  · rintro (⟨i, mem, column, inside, table⟩ | ⟨_, mem, f, w, rfl, bare, parsed, table⟩ |
      ⟨_, mem, w, rfl, table⟩ | ⟨_, mem, w, rfl, table⟩)
    · exact .selected mem inside table
    · exact .tested mem bare parsed table
    · exact .grouped mem table
    · exact .ordered mem table
  · intro writes
    cases writes with
    | selected mem inside table => exact .inl ⟨_, mem, _, inside, table⟩
    | tested mem bare parsed table => exact .inr (.inl ⟨_, mem, _, _, rfl, bare, parsed, table⟩)
    | grouped mem table => exact .inr (.inr (.inl ⟨_, mem, _, rfl, table⟩))
    | ordered mem table => exact .inr (.inr (.inr ⟨_, mem, _, rfl, table⟩))

def linkedTitles : Catalog :=
  Catalog.empty.withEntity "Task" ⟨false, [.link "project" "Project"], []⟩

theorem refers_of_document_titles :
    let j := Json.obj [("entity", .str "Task"), ("fields", .str "subject, project.title"),
      ("filters", .obj [("project.status", .str "Open")]), ("order_by", .str "tabUser.email"),
      ("group_by", .str "tabTask.status")]
    ∃ r q m', ofJson j = .ok r ∧ r.build linkedTitles .standard
        { Viewer.ofUser "jane" with enforced := false } (.empty 1) = (.ok q, m') ∧
      q.Refers (.ofEntity "User") ∧
      ∀ t, q.Refers t → t = q.table ∨ q.isJoined t ∨ t = .ofEntity "User" := by
  intro j
  obtain ⟨r, read, selecting⟩ : ∃ r, ofJson j = .ok r ∧ r.mode = .select := ⟨_, rfl, rfl⟩
  obtain ⟨q, m', built, table, joins⟩ : ∃ q m', r.build linkedTitles .standard
      { Viewer.ofUser "jane" with enforced := false } (.empty 1) = (.ok q, m') ∧
        q.table = .ofEntity "Task" ∧ q.joins.map Join.table = [.ofEntity "Project"] := by
    cases read
    exact ⟨_, _, rfl, rfl, rfl⟩
  have orders : orderItems r.orderBy = [.column ⟨some "tabUser", "email"⟩] := by
    cases read
    rfl
  obtain ⟨items, picked, refers⟩ := refers_of_document read selecting built
  refine ⟨r, q, m', read, built, ?_, fun t refersTo => ?_⟩
  · refine (refers (.ofEntity "User") ?_ ?_).2 (.ordered (w := ⟨some "tabUser", "email"⟩) ?_ rfl)
    · rw [table]
      decide
    · rw [Query.isJoined, ← Bool.not_eq_true, Join.any_table, joins]
      decide
    · rw [orders]
      exact List.mem_singleton_self _
  · by_contra others
    obtain ⟨other, absent, ne⟩ : t ≠ q.table ∧ q.isJoined t = false ∧ t ≠ .ofEntity "User" := by
      simpa [not_or] using others
    rw [table] at picked refers other
    have shown : ∀ i ∈ items, ∀ column ∈ i.written, column.table = .ofEntity "Task" := by
      cases read
      cases picked
      decide
    have tests : ∀ f, .condition f ∈ r.steps →
        Filter.related? linkedTitles (.ofEntity "Task") f.field ≠ none := by
      cases read
      intro f mem
      cases List.mem_singleton.1 mem
      decide
    have groups : groupItems r.groupBy = [.column ⟨some "tabTask", "status"⟩] := by
      cases read
      rfl
    cases (refers t other absent).1 refersTo with
    | selected mem inside home => exact other (home.symm.trans (shown _ mem _ inside))
    | tested mem bare _ _ => exact tests _ mem bare
    | ordered mem written =>
      rw [orders] at mem
      cases List.mem_singleton.1 mem
      exact ne (congrArg Table.mk (Option.some.inj written).symm)
    | grouped mem written =>
      rw [groups] at mem
      cases List.mem_singleton.1 mem
      exact other (congrArg Table.mk (Option.some.inj written).symm)

/-- A table that is neither queried nor joined is referred to from every clause that writes it. -/
theorem refers_absent_project :
    let refers (member : String × Json) : Prop := ∃ r q m',
      ofJson (.obj [("entity", .str "Task"), member]) = .ok r ∧ r.mode = .select ∧
      r.build linkedTitles .standard { Viewer.ofUser "jane" with enforced := false } (.empty 1) =
        (.ok q, m') ∧
      q.table = .ofEntity "Task" ∧ q.joins = [] ∧ q.Refers (.ofEntity "Project")
    refers ("fields", .str "tabProject.title") ∧
    refers ("filters", .obj [("tabProject.title", .str "x")]) ∧
    refers ("order_by", .str "tabProject.title") ∧ refers ("group_by", .str "tabProject.title") := by
  intro refers
  let title := (Table.ofEntity "Project").column "title"
  refine ⟨⟨_, _, _, rfl, rfl, rfl, rfl, rfl, title, ?_, rfl⟩,
    ⟨_, _, _, rfl, rfl, rfl, rfl, rfl, title, ?_, rfl⟩,
    ⟨_, _, _, rfl, rfl, rfl, rfl, rfl, title, ?_, rfl⟩,
    ⟨_, _, _, rfl, rfl, rfl, rfl, rfl, title, ?_, rfl⟩⟩
  · exact .selected (List.mem_singleton_self _) .itself
  · exact .tested (List.mem_singleton_self _) (.term List.mem_cons_self .itself)
  · exact .ordered (List.mem_singleton_self _) .itself
  · exact .grouped (List.mem_singleton_self _) .itself

end Request

end ScopedQuery
