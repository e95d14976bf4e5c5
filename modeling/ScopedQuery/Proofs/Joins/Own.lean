import ScopedQuery.Proofs.Joins.Request
import ScopedQuery.Proofs.Names.Request

set_option autoImplicit false

namespace ScopedQuery

open Sql Outcome

open Selection (Reference)

variable {c : Catalog}

theorem Filter.Condition.childJoin?_table {own : Table} {f : Filter.Condition} {j : Join}
    (h : f.childJoin? own = some j) :
    j.table.entity ≠ own.entity := by
  obtain ⟨e, named, rfl⟩ := Option.map_eq_some_iff.1 h
  obtain ⟨_, other⟩ := Option.filter_eq_some_iff.1 named
  rw [Table.entity_ofEntity]
  simpa using other

theorem Selection.ne_of_foreignColumn? {owner entity column : String} {cs : List Char}
    (h : foreignColumn? owner cs = some (entity, column)) : entity ≠ owner := by
  unfold foreignColumn? at h
  obtain ⟨⟨table, back⟩, _, h⟩ := Option.bind_eq_some_iff.1 h
  obtain ⟨target, _, h⟩ := Option.bind_eq_some_iff.1 h
  split at h
  · cases h
  · next foreign =>
    cases h
    rintro rfl
    simp at foreign

namespace Request

variable {s : Settings} {v : Viewer} {r : Request} {m m' : Memo} {q : Query}

/-- What is built for a document joins the queried table if, and only if, a link or a collection of
the queried entity that leads back to it is followed by a selected field or a filter. -/
theorem own_joined_of_build {j : Json} (read : ofJson j = .ok r)
    (h : r.build c s v m = (.ok q, m')) :
    ∃ items, r.items c s.dialect v q.table m = (.ok items, m') ∧
      (q.isJoined q.table ↔ ∃ reference ∈ r.references c q.table items,
        reference.entity = q.table.entity ∧ ∃ e f, c.entity q.table.entity = .ok e ∧
          f ∈ e.fields ∧ f.target = some q.table.entity ∧
          (f.type = .link ∧ reference.route = .link f.fieldname ∨
            f.type.isCollection ∧ reference.route = .rows (some f.fieldname))) := by
  obtain ⟨items, found, joined⟩ := isJoined_of_build h
  have known : c.NamesTable q.table := namesTable_of_ofJson read (joins_of_build h).1
  refine ⟨items, found, (joined q.table).trans ⟨?_, ?_⟩⟩
  · rintro (⟨reference, mem, same⟩ | ⟨f, j, _, named, same⟩)
    · have entity : reference.entity = q.table.entity := by
        rw [← same]
        exact (Table.entity_ofEntity _).symm
      obtain ⟨text, parsed⟩ := parsed_of_references found mem
      obtain ⟨_, _, _, _, _, leads⟩ := Reference.leads_of_parse parsed
      refine ⟨reference, mem, entity, ?_⟩
      -- Of the ways that a reference can take, only the quoted table excludes its owner.
      rw [entity] at leads
      generalize way : reference.route = route at leads
      cases leads with
      | table other =>
        exact absurd rfl (Selection.ne_of_foreignColumn? other)
      | @link e f _ _ _ declared there type target =>
        exact ⟨e, f, declared, there, target, .inl ⟨type, rfl⟩⟩
      | @collection e f _ _ _ declared there type target =>
        exact ⟨e, f, declared, there, target, .inr ⟨type, rfl⟩⟩
    · exact absurd (congrArg Table.entity same) (Filter.Condition.childJoin?_table named)
  · rintro ⟨reference, mem, entity, _⟩
    refine .inl ⟨reference, mem, ?_⟩
    unfold Reference.table
    rw [entity, known.ofEntity_entity]

def nestedTasks : Catalog :=
  (Catalog.empty.withEntity "Task" ⟨false, [.link "parent_task" "Task", .link "project" "Project",
    ⟨"items", .table, some "Task Item", false, false⟩], []⟩).withEntity "Task Item" ⟨true, [], []⟩

theorem own_joined_of_build_projects :
    let j := Json.obj [("entity", .str "Task"),
      ("fields", .str "parent_task, project.title, \x60tabTask\x60.subject"),
      ("filters", .arr [.arr [.str "Task", .str "\x60tabTask\x60.status", .str "=", .str "Open"],
        .arr [.str "Task Item", .str "qty", .str "=", .int 1]])]
    ∃ r q m', ofJson j = .ok r ∧ r.build nestedTasks .standard
        { Viewer.ofUser "jane" with enforced := false } (.empty 1) = (.ok q, m') ∧
      q.joins.map Join.table = [.ofEntity "Project", .ofEntity "Task Item"] ∧
      ¬ q.isJoined q.table := by
  intro j
  obtain ⟨r, read⟩ : ∃ r, ofJson j = .ok r := ⟨_, rfl⟩
  obtain ⟨q, m', built, table, joins, referred⟩ : ∃ q m', r.build nestedTasks .standard
      { Viewer.ofUser "jane" with enforced := false } (.empty 1) = (.ok q, m') ∧
      q.table = .ofEntity "Task" ∧
      q.joins.map Join.table = [.ofEntity "Project", .ofEntity "Task Item"] ∧
      ∀ items m₁, r.items nestedTasks .mariadb { Viewer.ofUser "jane" with enforced := false }
        (.ofEntity "Task") (.empty 1) = (.ok items, m₁) →
          (r.references nestedTasks (.ofEntity "Task") items).map Reference.entity =
            ["Project"] := by
    cases read
    refine ⟨_, _, rfl, rfl, rfl, fun items m₁ found => ?_⟩
    cases found
    rfl
  refine ⟨r, q, m', read, built, joins, ?_⟩
  obtain ⟨items, found, own⟩ := own_joined_of_build read built
  rw [own]
  rintro ⟨reference, mem, entity, _⟩
  rw [table] at found mem entity
  have among := List.mem_map_of_mem (f := Reference.entity) mem
  rw [referred items m' found, entity] at among
  exact absurd among (by decide)

/-- A task joined for its parent task cannot be told from the parent. -/
theorem own_joined_for_parent : ∃ r q m',
    ofJson (.obj [("entity", .str "Task"), ("fields", .str "parent_task.subject")]) = .ok r ∧
      r.build nestedTasks .standard { Viewer.ofUser "jane" with enforced := false } (.empty 1) =
        (.ok q, m') ∧
      q.table = .ofEntity "Task" ∧ q.joins.map Join.table = [.ofEntity "Task"] :=
  ⟨_, _, _, rfl, rfl, rfl, rfl⟩

end Request

end ScopedQuery
