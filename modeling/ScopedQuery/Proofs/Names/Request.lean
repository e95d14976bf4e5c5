import ScopedQuery.Proofs.Names.Selected
import ScopedQuery.Proofs.Request.Steps
import ScopedQuery.Proofs.Request.Textual

set_option autoImplicit false

namespace ScopedQuery

open Sql Outcome

open Clause (ColumnText)

namespace Filter

variable {V : Vocabulary} {c : Catalog}

section Values

variable {t : Term} {value : Operand}

theorem within_operand (value : Operand) : value.term.Within V := by
  cases value with
  | null => exact .literal _
  | scalar v => exact .literal v
  | list vs =>
    refine .tuple fun t mem => ?_
    obtain ⟨v, _, rfl⟩ := List.mem_map.1 mem
    exact .literal v

theorem within_criterionOf {op : Operator} {column : Column} {criterion : Criterion}
    (known : V.column column) (h : criterionOf c op column value = .ok criterion) :
    criterion.Within V := by
  have tested : column.term.Within V := .column known
  cases makes_of_criterionOf h with
  | lineage _ =>
    refine Criterion.within_member _ tested fun t mem => ?_
    obtain ⟨name, _, rfl⟩ := List.mem_map.1 mem
    exact .literal _
  | null _ _ | isSet _ _ => exact Criterion.within_isNull _ tested
  | compare op _ => exact Criterion.within_compare op tested (within_operand value)
  | like negated _ => exact Criterion.within_like negated tested (within_operand value)
  | member negated _ =>
    refine Criterion.within_member negated tested fun t mem => ?_
    obtain ⟨v, rfl⟩ := literal_of_mem_memberValues mem
    exact .literal v
  | between _ => exact Criterion.within_between tested (.literal _) (.literal _)
  | regex _ => exact Criterion.within_regex tested (within_operand value)

end Values

theorem Tests.namesColumn {q : Query} {column : Column} (home : c.NamesTable q.table)
    (h : Tests c q column) : c.NamesColumn column := by
  cases h with
  | written reached read resolved =>
    refine Catalog.namesColumn_of_resolve? ?_ (ColumnText.parse?_eq_some.1 read) resolved
    rcases reached with rfl | ⟨entity, name, rfl, _⟩
    · exact home
    · exact ⟨entity, rfl, .inl name⟩
  | related read _ =>
    obtain ⟨_, _, _, _, _, leads⟩ := Selection.Reference.leads_of_parse read
    exact Catalog.namesColumn_of_leads leads nofun

end Filter

namespace Access

variable {c : Catalog} {d : Dialect} {table : Table} {v : Viewer} {strict : Bool}
  {rule : RowRule} {entity user : String}

theorem within_confinement {column : Column} (known : c.NamesColumn column) (strict : Bool)
    (docs : List String) :
    (confinement strict column docs).Within (c.vocabulary d entity user) := by
  have among : (column.oneOf docs).Within (c.vocabulary d entity user) :=
    Criterion.within_oneOf known docs
  unfold confinement
  split
  · exact among
  · exact Criterion.within_or (Criterion.within_isNull false (.column known)) among

/-- Users are confined by the records' own names and by links that are declared. -/
theorem within_userConditions {conditions : List Criterion} (home : c.NamesTable table)
    (h : userConditions c table v strict = .ok conditions) :
    ∀ criterion ∈ conditions, criterion.Within (c.vocabulary d entity user) := by
  by_cases confined : c.userPermissions v.user = []
  · unfold userConditions at h
    rw [confined] at h
    cases h
    nofun
  rw [userConditions_eq confined] at h
  obtain ⟨e, declared, rfl⟩ := map_eq_ok.1 h
  intro criterion mem
  obtain ⟨f, field, made⟩ := List.mem_filterMap.1 mem
  have proper : Clause.IsWord f.fieldname.toList ∨ c.Supplies f.fieldname := by
    rcases mem_recordFields.1 field with rfl | ⟨there, type⟩
    · exact .inl (show Clause.IsWord "name".toList by decide)
    · exact .inr (Catalog.supplies_of_link declared there type)
  rw [fieldConfinement?_eq] at made
  split at made
  · cases made
  · cases made
    exact within_confinement (Catalog.namesColumn_own home proper) strict _

theorem within_providedConditions : ∀ criterion ∈ providedConditions c entity user,
    criterion.Within (c.vocabulary d entity user) := by
  intro criterion mem
  obtain ⟨sql, provided, rfl⟩ := mem_providedConditions.1 mem
  exact .raw provided

theorem within_rowRule (home : c.NamesTable table) (h : rowRule c table v strict = .ok rule) :
    ∀ criterion ∈ rule.conditions, criterion.Within (c.vocabulary d table.entity v.user) := by
  have provided : ∀ criterion ∈ providedConditions c table.entity v.user,
      criterion.Within (c.vocabulary d table.entity v.user) := within_providedConditions
  unfold rowRule at h
  dsimp only at h
  split at h
  · cases h
    have owner : c.NamesColumn (table.column "owner") :=
      Catalog.namesColumn_own home (.inl (by decide))
    exact List.forall_mem_cons.2 ⟨Criterion.within_equals owner (.literal _), provided⟩
  split at h
  · obtain ⟨conditions, made, h⟩ := bind_eq_ok.1 h
    cases h
    exact List.forall_mem_append.2 ⟨within_userConditions home made, provided⟩
  · cases h
    exact provided

theorem within_criterion? (home : c.NamesTable table)
    (conditions : ∀ criterion ∈ rule.conditions, criterion.Within (c.vocabulary d entity user)) :
    ∀ criterion ∈ rule.criterion? table, criterion.Within (c.vocabulary d entity user) := by
  have shared : ((table.column "name").oneOf rule.shared).Within (c.vocabulary d entity user) :=
    Criterion.within_oneOf (Catalog.namesColumn_own home (.inl (by decide))) _
  have all := Criterion.within_all conditions
  intro criterion found
  unfold RowRule.criterion? at found
  split at found
  · cases found
  · cases found
    exact all
  · cases found
    exact shared
  · cases found
    exact Criterion.within_or all shared

end Access

namespace Request

variable {c : Catalog} {d : Dialect} {s : Settings} {v : Viewer} {r : Request} {m m' : Memo}
  {q q' : Query} {entity user : String}

theorem within_item {table : Table} {cs : List Char} {item : Clause.Item} {t : Term}
    (home : c.NamesTable table) (read : Clause.Item.parse? cs = some item)
    (term : item.term? table = some t) : t.Within (c.vocabulary d entity user) := by
  cases item with
  | position n =>
    cases term
    exact .position n
  | column w =>
    obtain ⟨column, resolved, rfl⟩ := Option.map_eq_some_iff.1 term
    have parsed : ColumnText.parse? cs = some w := by
      unfold Clause.Item.parse? at read
      split at read
      · obtain ⟨_, _, eq⟩ := Option.map_eq_some_iff.1 read
        cases eq
      · obtain ⟨_, found, eq⟩ := Option.map_eq_some_iff.1 read
        cases eq
        exact found
    exact .column
      (Catalog.namesColumn_of_resolve? home (ColumnText.parse?_eq_some.1 parsed) resolved)

theorem Step.within (textual : r.Textual) (step : Step c r q q')
    (h : q.Within (c.vocabulary d entity user)) : q'.Within (c.vocabulary d entity user) := by
  have home : c.NamesTable q.table := h.table
  have owner : c.NamesTable (.ofEntity q.table.entity) := by
    rw [home.ofEntity_entity]
    exact home
  cases step with
  | @child child name _ =>
    have known : c.NamesTable (.ofEntity child) := ⟨child, rfl, .inl name⟩
    exact h.leftJoin known (Catalog.within_childRowsOf known owner none)
  | related read =>
    obtain ⟨same, _, _, _, _, leads⟩ := Selection.Reference.leads_of_parse read
    rw [← same] at leads owner
    exact h.ensureJoin (Catalog.namesTable_of_leads leads)
      (Catalog.within_joinCriterion owner leads)
  | condition tests _ made =>
    exact h.restrict (Filter.within_criterionOf (tests.namesColumn home) made)
  | ready given mem =>
    obtain ⟨j, rfl⟩ := textual.filters _ given
    exact absurd mem (Filter.criterion_not_mem_stepsOfJson _ j)
  | order d read term => exact h.orderBy d (within_item home read term)
  | group read term => exact h.groupBy (within_item home read term)
  | limit n => exact h.limitTo n
  | offset n => exact h.skip n
  | flags =>
    unfold withFlags
    dsimp only
    split_ifs <;> exact { h with }

theorem within_select {i : Selection.Item} (item : i.Within (c.vocabulary d entity user))
    (h : q.Within (c.vocabulary d entity user)) :
    (i.select q).Within (c.vocabulary d entity user) := by
  cases i with
  | reference r =>
    obtain ⟨known, join⟩ := item.join r rfl
    exact (h.ensureJoin known join).select (item.term _ rfl)
  | child child => exact h.addChild child
  | plain _ | star _ | position _ | call _ | term _ => exact h.select (item.term _ rfl)

theorem within_selectAll {items : List Selection.Item}
    (each : ∀ i ∈ items, i.Within (c.vocabulary d entity user))
    (h : q.Within (c.vocabulary d entity user)) :
    (Selection.selectAll q items).Within (c.vocabulary d entity user) := by
  have all : (items.foldl Selection.Item.select q).Within (c.vocabulary d entity user) := by
    induction items generalizing q with
    | nil => exact h
    | cons i items ih =>
      obtain ⟨first, others⟩ := List.forall_mem_cons.1 each
      exact ih others (within_select first h)
  unfold Selection.selectAll
  dsimp only
  split
  · exact all
  · exact all.select (.part (.column (Catalog.namesColumn_own all.table (.inl (by decide)))))

theorem within_selectItems {table : Table} {fields : Option Selection}
    {items : List Selection.Item} (home : c.NamesTable table) (sound : m.Sound)
    (textual : ∀ s ∈ fields, s.Textual)
    (h : selectItems c d v table fields m = (.ok items, m')) :
    ∀ i ∈ items, i.Within (c.vocabulary d entity user) := by
  obtain ⟨parsed, read, narrowed⟩ := selectItems_ok h
  have readable : ∀ i ∈ parsed, Access.Readable table i ∧
      i.Within (c.vocabulary d entity user) := by
    intro i mem
    obtain ⟨e, _, denotes⟩ := Selection.denotes_of_parse read i mem
    exact ⟨Access.readable_of_denotes denotes,
      Selection.within_of_parseEntries home sound (Selection.textual_getD textual) read i mem⟩
  split at narrowed
  · exact Access.within_of_narrow (fun i mem => (readable i mem).1)
      (fun i mem => (readable i mem).2) narrowed
  · cases narrowed
    exact fun i mem => (readable i mem).2

theorem namesTable_of_ofJson {j : Json} {table : Table} (read : ofJson j = .ok r)
    (resolved : r.target.resolve = .ok table) : c.NamesTable table := by
  have target : ∃ name, r.target = .entity name := by
    unfold ofJson at read
    split at read
    · cases read
    split at read
    · cases read
    · next made =>
      cases read
      unfold Document.request at made
      obtain ⟨fields, _, made⟩ := bind_eq_ok.1 made
      obtain ⟨mode, _, made⟩ := bind_eq_ok.1 made
      cases made
      exact ⟨_, rfl⟩
  obtain ⟨name, target⟩ := target
  rw [target] at resolved
  unfold Target.resolve at resolved
  dsimp only at resolved
  split at resolved
  · next proper =>
    cases resolved
    exact ⟨name, rfl, .inl proper⟩
  · cases resolved

/-- In what is built for a document every column and every label is a word or a column that the
catalog supplies, every table is that of a properly named entity or of a declared target, selected
calls are named by words and calls inside of them by the registry, and the only conditions in SQL
are the provided ones. The one exception is a column whose qualifier is the bare prefix of
tables. -/
theorem names_of_build {j : Json} (read : ofJson j = .ok r) (sound : m.Sound)
    (h : r.build c s v m = (.ok q, m')) :
    q.Within (c.vocabulary s.dialect q.table.entity v.user) := by
  obtain ⟨table, picked, asked, gate, selected, arranged, confined⟩ := build_ok h
  have textual : r.Textual := textual_of_ofJson read
  have known : c.NamesTable table := namesTable_of_ofJson read (passGate_ok gate).1
  have fresh : (Query.new r.mode table s.dialect).Within
      (c.vocabulary s.dialect table.entity v.user) := .new _ _ known
  have picks : picked.Within (c.vocabulary s.dialect table.entity v.user) := by
    rcases selectFields_ok selected with ⟨items, found, rfl⟩ | rfl
    · exact within_selectAll (within_selectItems known sound textual.fields found) fresh
    · exact fresh
  have arranges : asked.Within (c.vocabulary s.dialect table.entity v.user) :=
    invariant_of_steps (steps_of_arrange arranged) (fun _ _ step => step.within textual) picks
  have at_table : asked.table = table := by
    rw [table_of_arrange arranged, table_of_selectFields selected]
  unfold confine at confined
  split at confined
  · obtain ⟨rule, ruled, rfl⟩ := Access.confineRows_ok confined
    subst at_table
    have criterion := Access.within_criterion? known
      (Access.within_rowRule (d := s.dialect) known ruled)
    refine { arranges with wheres := List.forall_mem_append.2 ⟨arranges.wheres, ?_⟩ }
    exact fun c mem => criterion c (Option.mem_toList.1 mem)
  · cases confined
    rw [at_table]
    exact arranges

theorem names_of_build_tasks :
    let j := Json.obj [("entity", .str "Task"),
      ("fields", .str "*, subject AS \x22label\x22, project.title"),
      ("filters", .obj [("project.title", .str "x")]),
      ("order_by", .str "\x60tabTask\x60.subject asc")]
    ∃ r q m', ofJson j = .ok r ∧
      r.build Access.columnReader .standard (.ofUser "jane") (.empty 1) = (.ok q, m') ∧
      q.Within (Access.columnReader.vocabulary .mariadb "Task" "jane") := by
  intro j
  obtain ⟨r, read⟩ : ∃ r, ofJson j = .ok r := ⟨_, rfl⟩
  obtain ⟨q, m', built, table⟩ : ∃ q m', r.build Access.columnReader .standard (.ofUser "jane")
      (.empty 1) = (.ok q, m') ∧ q.table = .ofEntity "Task" := by
    cases read
    exact ⟨_, _, rfl, rfl⟩
  have within := names_of_build read (Memo.sound_empty 1) built
  rw [table, Table.entity_ofEntity] at within
  exact ⟨r, q, m', read, built, within⟩

/-- The bare prefix passes for a table, although it is none of an entity with a name. -/
theorem names_bare_prefix :
    let j := Json.obj [("entity", .str "Task"), ("order_by", .str "tab.name")]
    let v := { Viewer.ofUser "jane" with enforced := false }
    ∃ r q m', ofJson j = .ok r ∧ r.build .empty .standard v (.empty 1) = (.ok q, m') ∧
      q.orderBys = [⟨.column ⟨⟨"tab"⟩, "name", none⟩, .desc⟩] ∧
      ¬ Catalog.empty.NamesTable ⟨"tab"⟩ := by
  intro j v
  refine ⟨_, _, _, rfl, rfl, rfl, ?_⟩
  rintro ⟨entity, eq, named⟩
  obtain rfl : "" = entity := Table.ofEntity_inj.1 eq
  rcases named with proper | ⟨_, _, declared, _⟩
  · exact absurd proper (by decide)
  · cases declared

end Request

end ScopedQuery
