import ScopedQuery.Proofs.Request.Frame
import ScopedQuery.Proofs.Request.Steps
import ScopedQuery.Proofs.Request.Textual
import ScopedQuery.Proofs.Rows.Rule
import ScopedQuery.Proofs.Selection.Leads
import ScopedQuery.Proofs.Selection.Narrowing

set_option autoImplicit false

namespace ScopedQuery

open Sql Outcome

namespace Selection

def terms (items : List Item) : List Term := items.filterMap Item.term?

variable {items : List Item} {q : Query}

theorem mem_terms {t : Term} : t ∈ terms items ↔ ∃ i ∈ items, i.term? = some t :=
  List.mem_filterMap

theorem frame_select (i : Item) (q : Query) :
    (i.select q).selects = q.selects ++ i.term?.toList ∧ (i.select q).table = q.table := by
  cases i with
  | reference r =>
    obtain ⟨table, selects⟩ := q.frame_ensureJoin r.table r.joinCriterion
    refine ⟨?_, table⟩
    exact congrArg (· ++ [Term.column { r.column with label := r.label }]) selects
  | child child =>
    refine ⟨?_, rfl⟩
    exact (List.append_nil _).symm
  | plain _ | star _ | position _ | call _ | term _ => exact ⟨rfl, rfl⟩

theorem frame_foldl (items : List Item) (q : Query) :
    (items.foldl Item.select q).selects = q.selects ++ terms items ∧
      (items.foldl Item.select q).table = q.table := by
  induction items generalizing q with
  | nil => exact ⟨(List.append_nil _).symm, rfl⟩
  | cons i items ih =>
    obtain ⟨selects, table⟩ := frame_select i q
    obtain ⟨others, same⟩ := ih (i.select q)
    rw [List.foldl_cons, others, same, selects, table, List.append_assoc]
    refine ⟨congrArg (q.selects ++ ·) ?_, rfl⟩
    unfold terms
    cases term : i.term? with
    | none => simp [term]
    | some t => simp [term]

theorem selects_selectAll (items : List Item) (fresh : q.selects = []) :
    (selectAll q items).selects =
      if terms items = [] then [(q.table.column "name").term] else terms items := by
  obtain ⟨selects, table⟩ := frame_foldl items q
  rw [fresh, List.nil_append] at selects
  unfold selectAll Query.hasSelects
  dsimp only
  rw [selects]
  cases shown : terms items with
  | nil =>
    rw [shown] at selects
    simp [Query.select, selects, table]
  | cons t ts =>
    rw [shown] at selects
    simp [selects]

end Selection

namespace Access

open Selection

variable {c : Catalog} {user : String} {table : Table} {v : Viewer}

/-- Whether a reference leads from an entity to itself, through a link that is one of some
columns. -/
structure Returns (c : Catalog) (entity : String) (columns : List String) (r : Reference) :
    Prop where
  owner : r.owner = entity
  target : r.entity = entity
  link : ∃ e f, c.entity entity = .ok e ∧ f ∈ e.fields ∧ f.type = .link ∧
    f.target = some entity ∧ r.route = .link f.fieldname ∧ f.fieldname ∈ columns

theorem not_returns {entity : String} {e : Catalog.Entity} {columns : List String} {r : Reference}
    (declared : c.entity entity = .ok e) (others : ∀ f ∈ e.fields, f.target ≠ some entity) :
    ¬ Returns c entity columns r := by
  rintro ⟨_, _, e', f, again, mem, _, target, _⟩
  cases declared.symm.trans again
  exact others f mem target

theorem mem_of_sees {entity fieldname : String} {columns : List String}
    (visible : visibleColumns c user entity = .ok columns) (h : Sees c user entity fieldname) :
    fieldname ∈ columns := by
  obtain ⟨others, again, mem⟩ := h
  cases visible.symm.trans again
  exact mem

theorem mem_of_shows_own {d : Dialect} {entry : Entry} {i : Item} {t : Term} {column : Column}
    {columns : List String} (visible : visibleColumns c user table.entity = .ok columns)
    (textual : ∀ t, entry ≠ .term t) (origin : Denotes c table d entry i)
    (shows : Shows c user table.entity i) (selected : i.term? = some t)
    (mentions : t.Mentions column) (own : column.table = table) :
    column.name ∈ columns ∨ ∃ r, i = .reference r ∧ Returns c table.entity columns r := by
  cases origin with
  | plain read =>
    cases selected
    cases mentions with
    | itself =>
      rw [← own] at visible
      exact .inl (mem_of_sees visible shows)
    | part mem _ => cases mem
  | star => cases shows
  | position n =>
    cases selected
    cases mentions with
    | part mem _ => cases mem
  | call read =>
    cases selected
    rw [← own] at visible
    exact .inl (mem_of_sees visible (shows column mentions))
  | @reference _ _ r read =>
    cases selected
    cases mentions with
    | part mem _ => cases mem
    | itself =>
      have same : table.entity = r.entity := by
        rw [← own]
        exact Table.entity_ofEntity r.entity
      obtain ⟨owner, _, _, _, _, leads⟩ := Reference.leads_of_parse read
      dsimp only [Shows] at shows
      generalize through : r.route = route at leads shows
      -- Behind a link nothing but the link is looked at, and child rows are looked at themselves.
      cases leads with
      | link _ declared mem type target =>
        rw [← same] at target
        exact .inr ⟨r, rfl, owner, same.symm, _, _, declared, mem, type, target, through,
          mem_of_sees visible shows⟩
      | table _ =>
        rw [same] at visible
        exact .inl (mem_of_sees visible shows)
      | collection _ _ _ _ _ =>
        rw [same] at visible
        exact .inl (mem_of_sees visible shows)
  | child _ => cases selected
  | term t => exact absurd rfl (textual t)

theorem ne_star_of_shows {d : Dialect} {entry : Entry} {i : Item} {t : Term}
    (textual : ∀ t, entry ≠ .term t) (origin : Denotes c table d entry i)
    (shows : Shows c user table.entity i) (selected : i.term? = some t)
    (source : Option Table) : t ≠ .star source := by
  cases origin with
  | star => cases shows
  | child _ => cases selected
  | term t => exact absurd rfl (textual t)
  | plain _ | position _ | call _ | reference _ =>
    cases selected
    rintro ⟨⟩

theorem mem_of_narrow {s : Selection} {d : Dialect} {m m' : Memo} {items kept : List Item}
    (textual : s.Textual) (parsed : s.parse c table d m = (.ok items, m'))
    (narrowed : narrow c table v items = .ok kept) :
    ∃ columns, visibleColumns c v.user table.entity = .ok columns ∧
      ∀ t ∈ terms kept, (∀ source, t ≠ .star source) ∧
        ∀ column, t.Mentions column → column.table = table → column.name ∈ columns ∨
          ∃ r, .reference r ∈ kept ∧ t = .column { r.column with label := r.label } ∧
            Returns c table.entity columns r := by
  have origin : ∀ i ∈ items, ∃ entry ∈ s.toEntries, Denotes c table d entry i :=
    denotes_of_parse parsed
  have readable : ∀ i ∈ items, Readable table i := by
    intro i there
    obtain ⟨entry, _, denotes⟩ := origin i there
    exact readable_of_denotes denotes
  obtain ⟨columns, _, visible, each, eq⟩ := narrow_eq_ok.1 narrowed
  have shown := shows_of_forall₂ readable (remains_of_forall₂ visible readable each)
  rw [← eq] at shown
  refine ⟨columns, visible, fun t mem => ?_⟩
  obtain ⟨i, left, selected⟩ := mem_terms.1 mem
  have shows := (shown i left).1
  rcases narrow_ok narrowed i left with given | ⟨star, name, _, rfl⟩ | ⟨q, fields, _, rfl⟩
  · obtain ⟨entry, written, denotes⟩ := origin i given
    have text : ∀ t, entry ≠ .term t := fun t ready => textual t (ready ▸ written)
    refine ⟨ne_star_of_shows text denotes shows selected, fun column mentions own => ?_⟩
    rcases mem_of_shows_own visible text denotes shows selected mentions own with among |
      ⟨r, rfl, returns⟩
    · exact .inl among
    · exact .inr ⟨r, left, (Option.some.inj selected).symm, returns⟩
  · cases selected
    refine ⟨by rintro _ ⟨⟩, fun column mentions own => ?_⟩
    cases mentions with
    | itself =>
      rw [← own] at visible
      exact .inl (mem_of_sees visible shows)
    | part none _ => cases none
  · cases selected

end Access

namespace Request

open Selection

variable {c : Catalog} {s : Settings} {v : Viewer} {r : Request} {table : Table} {m m' : Memo}
  {q : Query}

theorem selects_of_build (selecting : r.mode = .select) (h : r.build c s v m = (.ok q, m')) :
    r.target.resolve = .ok q.table ∧
      ∃ items, selectItems c s.dialect v q.table r.fields m = (.ok items, m') ∧
        q.selects = if terms items = [] then [(q.table.column "name").term] else terms items := by
  obtain ⟨table, picked, asked, gate, selected, arranged, confined⟩ := build_ok h
  have picking : ∃ items, selectItems c s.dialect v table r.fields m = (.ok items, m') ∧
      picked = selectAll (.new r.mode table s.dialect) items := by
    unfold selectFields at selected
    rw [selecting] at selected ⊢
    dsimp only at selected
    rw [Prod.mk.injEq] at selected
    obtain ⟨items, picked, rfl⟩ := map_eq_ok.1 selected.1
    exact ⟨items, Prod.ext picked selected.2, rfl⟩
  obtain ⟨items, picks, rfl⟩ := picking
  have arranges : asked.table = table ∧
      asked.selects = (selectAll (.new r.mode table s.dialect) items).selects := by
    have frame := invariant_of_steps (P := fun q' => q'.table = _ ∧ q'.selects = _)
      (steps_of_arrange arranged)
      (fun a b step kept => ⟨step.frame.1.trans kept.1, step.frame.2.trans kept.2⟩) ⟨rfl, rfl⟩
    exact ⟨frame.1.trans (table_of_selectFields selected), frame.2⟩
  have confines : q.table = asked.table ∧ q.selects = asked.selects := by
    obtain ⟨_, rfl⟩ := confine_ok confined
    exact ⟨rfl, rfl⟩
  have same : q.table = table := confines.1.trans arranges.1
  rw [same, confines.2, arranges.2]
  exact ⟨(passGate_ok gate).1, items, picks, selects_selectAll items rfl⟩

/-- Of the queried table, a confined viewer is shown permitted columns and what is behind permitted
links to it, or else the names of the records alone. -/
theorem selects_visible (textual : ∀ s ∈ r.fields, s.Textual) (selecting : r.mode = .select)
    (confines : v.confinesColumns) (h : r.build c s v m = (.ok q, m')) :
    ∃ items columns, selectItems c s.dialect v q.table r.fields m = (.ok items, m') ∧
      Access.visibleColumns c v.user q.table.entity = .ok columns ∧
      (terms items = [] ∧ q.selects = [(q.table.column "name").term] ∨
        q.selects = terms items ∧ ∀ t ∈ q.selects, (∀ source, t ≠ .star source) ∧
          ∀ column, t.Mentions column → column.table = q.table → column.name ∈ columns ∨
            ∃ r, .reference r ∈ items ∧ t = .column { r.column with label := r.label } ∧
              Access.Returns c q.table.entity columns r) := by
  obtain ⟨_, items, picked, selects⟩ := selects_of_build selecting h
  have narrows : ∃ columns, Access.visibleColumns c v.user q.table.entity = .ok columns ∧
      ∀ t ∈ terms items, (∀ source, t ≠ .star source) ∧
        ∀ column, t.Mentions column → column.table = q.table → column.name ∈ columns ∨
          ∃ r, .reference r ∈ items ∧ t = .column { r.column with label := r.label } ∧
            Access.Returns c q.table.entity columns r := by
    obtain ⟨parsed, read, narrowed⟩ := selectItems_ok picked
    rw [if_pos confines] at narrowed
    exact Access.mem_of_narrow (textual_getD textual) read narrowed
  obtain ⟨columns, visible, each⟩ := narrows
  refine ⟨items, columns, picked, visible, ?_⟩
  split at selects
  · next nothing => exact .inl ⟨nothing, selects⟩
  · rw [selects]
    exact .inr ⟨rfl, each⟩

/-- What is built for a document shows a confined viewer, of the queried table, the permitted
columns only, each by its name. The exceptions are what a reference selects that returns to the
entity through a permitted link, and the names of the records, alone, where nothing that is selected
is left. -/
theorem columns_of_document {j : Json} (read : ofJson j = .ok r) (selecting : r.mode = .select)
    (confines : v.confinesColumns) (h : r.build c s v m = (.ok q, m')) :
    ∃ items columns, selectItems c s.dialect v q.table r.fields m = (.ok items, m') ∧
      c.permittedFields q.table.entity v.user (c.columnCapability q.table.entity v.user) true =
        .ok columns ∧
      (terms items = [] ∧ q.selects = [.column (q.table.column "name")] ∨
        q.selects = terms items ∧ ∀ t ∈ q.selects, (∀ source, t ≠ .star source) ∧
          ∀ column, t.Mentions column → column.table = q.table → column.name ∈ columns ∨
            ∃ r, .reference r ∈ items ∧ t = .column { r.column with label := r.label } ∧
              Access.Returns c q.table.entity columns r) :=
  selects_visible (textual_of_ofJson read).fields selecting confines h

/-- A document that asks for every column, for one that is not permitted, and for one behind a
link. -/
theorem columns_of_document_tasks :
    let j := Json.obj [("entity", .str "Task"),
      ("fields", .str "*, budget, project.title, subject AS label")]
    ∃ r q m', ofJson j = .ok r ∧
      r.build Access.columnReader .standard (.ofUser "jane") (.empty 1) = (.ok q, m') ∧
      q.selects.length = 4 ∧ ∀ t ∈ q.selects, ∀ column, t.Mentions column →
        column.table = .ofEntity "Task" → column.name ∈ ["subject", "project"] := by
  intro j
  obtain ⟨r, read, selecting⟩ : ∃ r, ofJson j = .ok r ∧ r.mode = .select := ⟨_, rfl, rfl⟩
  obtain ⟨q, m', built, selects⟩ : ∃ q m', r.build Access.columnReader .standard (.ofUser "jane")
      (.empty 1) = (.ok q, m') ∧ q.selects.length = 4 ∧ q.table = .ofEntity "Task" := by
    cases read
    exact ⟨_, _, rfl, rfl, rfl⟩
  refine ⟨r, q, m', read, built, selects.1, ?_⟩
  obtain ⟨items, columns, _, permitted, shown⟩ := columns_of_document read selecting rfl built
  rw [selects.2] at permitted shown
  cases permitted
  rcases shown with ⟨_, alone⟩ | ⟨_, seen⟩
  · rw [alone] at selects
    exact absurd selects.1 (by decide)
  · intro t mem column mentions own
    rcases (seen t mem).2 column mentions own with visible | ⟨_, _, _, returns⟩
    · exact visible
    · exact absurd returns (Access.not_returns rfl (by decide))

def subjectReader : Catalog :=
  (Catalog.empty.withEntity "Task" ⟨false, [Access.plainField "subject",
    Access.plainField "budget"], []⟩).grant "jane" "Task" ⟨[.read], [], some ["subject"], none⟩

def parentReader : Catalog :=
  (Catalog.empty.withEntity "Task" ⟨false, [Access.plainField "budget",
    .link "parent_task" "Task"], []⟩).grant "jane" "Task"
      ⟨[.read], [], some ["name", "parent_task"], none⟩

/-- Both exceptions are met: nothing is left of the budget, and the budget of the parent task is
shown to one who may see the link alone. -/
theorem columns_unpermitted_shown :
    let shows (c : Catalog) (fields name : String) : Prop := ∃ r q m' columns,
      ofJson (.obj [("entity", .str "Task"), ("fields", .str fields)]) = .ok r ∧
      r.mode = .select ∧ (Viewer.ofUser "jane").confinesColumns ∧
      r.build c .standard (.ofUser "jane") (.empty 1) = (.ok q, m') ∧
      q.table = .ofEntity "Task" ∧ q.selects = [.column (q.table.column name)] ∧
      c.permittedFields "Task" "jane" (c.columnCapability "Task" "jane") true = .ok columns ∧
      name ∉ columns
    shows subjectReader "budget" "name" ∧ shows parentReader "parent_task.budget" "budget" := by
  intro shows
  constructor
  · exact ⟨_, _, _, _, rfl, rfl, rfl, rfl, rfl, rfl, rfl, by decide⟩
  · exact ⟨_, _, _, _, rfl, rfl, rfl, rfl, rfl, rfl, rfl, by decide⟩

end Request

end ScopedQuery
