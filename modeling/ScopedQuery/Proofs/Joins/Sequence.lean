import ScopedQuery.Proofs.Joins.Demand

set_option autoImplicit false

namespace ScopedQuery

open Sql Outcome

inductive Usage where
  | select (reference : Selection.Reference)
  | join (reference : Selection.Reference)
  /-- Resolving a filter's field, of another entity where one is given. -/
  | resolve (field : String) (entity : Option String)
  | filter (condition : Filter.Condition)

namespace Usage

def apply (c : Catalog) (q : Query) : Usage → Result Query
  | select r => .ok (r.select q)
  | join r => .ok (r.join q)
  | resolve field entity => .ok (Filter.resolve c q field entity).2
  | filter f => Filter.applyCondition c q f

def run (c : Catalog) (us : List Usage) (q : Query) : Result Query := us.foldlM (apply c) q

def joins (c : Catalog) (own : Table) : Usage → List Join
  | select r | join r => [r.toJoin]
  | resolve field _ => ((Filter.related? c own field).map Selection.Reference.toJoin).toList
  | filter f => f.joins c own

variable {c : Catalog} {u : Usage} {us vs : List Usage} {q q' q₁ : Query}

theorem run_cons : run c (u :: us) q = .ok q' ↔
    ∃ a, u.apply c q = .ok a ∧ run c us a = .ok q' := by
  unfold run
  rw [List.foldlM_cons]
  exact bind_eq_ok

theorem run_append : run c (us ++ vs) q = .ok q' ↔
    ∃ a, run c us q = .ok a ∧ run c vs a = .ok q' := by
  unfold run
  rw [List.foldlM_append]
  exact bind_eq_ok

theorem related?_of_refused {field : String} {entity : Option String} {e : QueryError}
    (h : Filter.resolve c q field entity = (.error e, q')) :
    Filter.related? c q.table field = none := by
  unfold Filter.related?
  cases read : Selection.Reference.parse c q.table.entity field with
  | error fault => rfl
  | ok reference =>
    cases reference with
    | none => rfl
    | some r =>
      rw [Filter.resolve_of_reference read] at h
      cases h

theorem joined_apply (h : u.apply c q = .ok q') : Query.Joined (u.joins c q.table) q q' := by
  cases u with
  | select r =>
    cases h
    exact (r.joined_join q).trans ⟨rfl, rfl⟩
  | join r =>
    cases h
    exact r.joined_join q
  | filter f => exact Filter.joined_applyCondition h
  | resolve field entity =>
    cases resolved : Filter.resolve c q field entity with
    | mk answer q₁ =>
      obtain rfl : q₁ = q' := by
        rw [apply, resolved] at h
        exact Except.ok.inj h
      cases answer with
      | ok column => exact Filter.joined_resolveField (Filter.resolveField_iff.2 resolved)
      | error fault =>
        rw [joins, related?_of_refused resolved, Filter.query_of_refused resolved]
        exact .refl _

theorem joined_run (h : run c us q = .ok q') : Query.Joined (us.flatMap (joins c q.table)) q q' := by
  induction us generalizing q with
  | nil =>
    cases h
    exact .refl _
  | cons u us ih =>
    obtain ⟨a, first, h⟩ := run_cons.1 h
    have step := joined_apply first
    have others := ih h
    rw [step.table] at others
    rw [List.flatMap_cons]
    exact step.trans others

/-- What could be used once can be used where all that it asks for is joined. -/
theorem apply_again (h : u.apply c q = .ok q') (same : q₁.table = q.table)
    (there : ∀ j ∈ u.joins c q.table, q₁.isJoined j.table) : ∃ q₂, u.apply c q₁ = .ok q₂ := by
  cases u with
  | select r => exact ⟨_, rfl⟩
  | join r => exact ⟨_, rfl⟩
  | resolve field entity => exact ⟨_, rfl⟩
  | filter f =>
    obtain ⟨op, joined, column, resolved, value, criterion, parsed, other, field, read, made, _⟩ :=
      Filter.applyCondition_eq_ok.1 h
    have before := Filter.joined_joinOther other
    have again : Filter.joinOther c q₁ f = .ok q₁ := by
      unfold Filter.joinOther at other ⊢
      rw [same]
      cases named : f.other? q.table with
      | none => rfl
      | some e =>
        rw [named] at other
        have join : q₁.isJoined (.ofEntity e) := by
          refine there ⟨.ofEntity e, Selection.childRowsOf (.ofEntity e) q.table.entity none⟩ ?_
          simp [joins, Filter.Condition.joins, Filter.Condition.childJoin?, named]
        exact Filter.joinChild_eq_ok.2
          ⟨(Filter.joinChild_eq_ok.1 other).1, .inl ⟨join, rfl⟩⟩
    have home : joined.table = q₁.table := before.table.trans same.symm
    rw [← same] at field
    obtain ⟨q₂, resolves⟩ : ∃ q₂,
        Filter.resolveField c q₁ f.field (f.other? q₁.table) = .ok (column, q₂) := by
      rcases Filter.resolveField_eq_ok.1 field with ⟨r, reads, rfl, _⟩ | ⟨none, _, w, text, means⟩
      · rw [home] at reads
        exact ⟨_, Filter.resolveField_iff.2 (Filter.resolve_of_reference reads)⟩
      · rw [home] at none means
        exact ⟨_, Filter.resolveField_iff.2 (Filter.resolve_of_written none text means)⟩
    exact ⟨_, Filter.applyCondition_eq_ok.2
      ⟨op, q₁, column, q₂, value, criterion, parsed, again, resolves, read, made, rfl⟩⟩

-- The induction follows the first run. The second one starts from any query where all is joined that
-- the first one asks for, since only that is kept from one use to the next.
theorem run_again (h : run c us q = .ok q') (same : q₁.table = q.table)
    (there : ∀ j ∈ us.flatMap (joins c q.table), q₁.isJoined j.table) :
    ∃ q₂, run c us q₁ = .ok q₂ ∧ q₂.joins = q₁.joins := by
  induction us generalizing q q₁ with
  | nil => exact ⟨q₁, rfl, rfl⟩
  | cons u us ih =>
    obtain ⟨a, first, h⟩ := run_cons.1 h
    rw [List.flatMap_cons] at there
    obtain ⟨early, late⟩ := List.forall_mem_append.1 there
    obtain ⟨b, again⟩ := apply_again first same early
    have step := joined_apply again
    have kept : b.joins = q₁.joins := by
      rw [step.joins, same]
      exact Join.extend_eq_self fun j mem => Join.any_table.1 (early j mem)
    have behind : a.table = q.table := (joined_apply first).table
    obtain ⟨q₂, others, joins⟩ := ih h (step.table.trans (same.trans behind.symm))
      (by
        rw [behind]
        intro j mem
        have joined := late j mem
        unfold Query.isJoined at joined ⊢
        rwa [kept])
    exact ⟨q₂, run_cons.2 ⟨b, again, others⟩, joins.trans kept⟩

/-- From a query without joins on, every table is joined once, in the order in which the tables were
first asked for and by the join that was asked for first. No use alters a join, and all of them
again leave the joins as they are. -/
theorem joins_of_run (fresh : q.joins = []) (h : run c us q = .ok q') :
    (q'.joins.map Join.table).Nodup ∧
      q'.joins.map Join.table = ((us.flatMap (joins c q.table)).map Join.table).eraseDups ∧
      (∀ j ∈ q'.joins, (us.flatMap (joins c q.table)).find? (·.table == j.table) = some j) ∧
      (∃ q'', run c us q' = .ok q'' ∧ q''.joins = q'.joins) ∧
      ∀ before u after, us = before ++ u :: after → ∃ a b, run c before q = .ok a ∧
        u.apply c a = .ok b ∧ run c after b = .ok q' ∧ a.joins <+: b.joins := by
  have whole := joined_run h
  have joins' : q'.joins = Join.extend [] (us.flatMap (joins c q.table)) := by
    rw [whole.joins, fresh]
  have once : (q'.joins.map Join.table).Nodup := by
    rw [joins']
    exact Join.nodup_extend List.nodup_nil
  have tables : q'.joins.map Join.table =
      ((us.flatMap (joins c q.table)).map Join.table).eraseDups := by
    rw [joins']
    exact Join.tables_extend rfl
  refine ⟨once, tables, fun j mem => ?_, ?_, ?_⟩
  · have found := Join.find?_extend [] (us.flatMap (joins c q.table)) j.table
    rw [List.nil_append, ← joins'] at found
    rw [← found]
    exact Join.find?_table once mem
  · refine run_again h whole.table fun j mem => ?_
    rw [Query.isJoined, Join.any_table, joins', Join.mem_tables_extend, List.nil_append]
    exact List.mem_map_of_mem mem
  · rintro before u after rfl
    obtain ⟨a, early, h⟩ := run_append.1 h
    obtain ⟨b, applied, late⟩ := run_cons.1 h
    refine ⟨a, b, early, applied, late, ?_⟩
    rw [(joined_apply applied).joins]
    exact Join.prefix_extend _ _

def linkedTasks : Catalog :=
  (Catalog.empty.withEntity "Task" ⟨false, [.link "assigned_to" "User", .link "reviewer" "User",
    .link "project" "Project", ⟨"items", .table, some "Task Item", false, false⟩], []⟩).withEntity
      "Task Item" ⟨true, [], []⟩

def mixedUses : List Usage :=
  [.resolve "a-b" none, .filter ⟨some "Task Item", "qty", "=", .int 1⟩,
    .select ⟨"User", "email", "Task", .link "reviewer", none⟩, .resolve "items.qty" none,
    .join ⟨"Project", "title", "Task", .link "project", none⟩,
    .filter ⟨none, "assigned_to.email", "!=", .null⟩]

theorem joins_of_run_mixedUses : ∃ q' q'',
    run linkedTasks mixedUses (.new .select (.ofEntity "Task") .mariadb) = .ok q' ∧
      q'.joins.map Join.table = [.ofEntity "Task Item", .ofEntity "User", .ofEntity "Project"] ∧
      run linkedTasks mixedUses q' = .ok q'' ∧ q''.joins = q'.joins := by
  obtain ⟨q', used⟩ : ∃ q', run linkedTasks mixedUses
      (.new .select (.ofEntity "Task") .mariadb) = .ok q' := ⟨_, rfl⟩
  obtain ⟨_, tables, _, ⟨q'', again, same⟩, _⟩ := joins_of_run rfl used
  exact ⟨q', q'', used, tables, again, same⟩

end Usage

end ScopedQuery
