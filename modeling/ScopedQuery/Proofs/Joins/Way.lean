import ScopedQuery.Proofs.Joins.Sequence
import ScopedQuery.Proofs.Selection.Leads

set_option autoImplicit false

namespace ScopedQuery

open Sql

namespace Selection

theorem childRowsOf_eq (child : Table) (owner : String) (field : Option String) :
    childRowsOf child owner field = .conj
      ([(child.column "parent").equals ((Table.ofEntity owner).column "name").term,
        (child.column "parenttype").equals (.text owner)] ++
        (field.map fun f => (child.column "parentfield").equals (.text f)).toList) := by
  cases field <;> rfl

theorem childRowsOf_inj {child : Table} {owner : String} {field other : Option String} :
    childRowsOf child owner field = childRowsOf child owner other ↔ field = other := by
  constructor
  · intro eq
    rw [childRowsOf_eq, childRowsOf_eq] at eq
    have last := List.append_cancel_left (Criterion.conj.inj eq)
    cases field <;> cases other <;> cases last <;> rfl
  · exact congrArg _

/-- References of one owner to one entity are joined alike when they take the same way. -/
theorem Reference.joinCriterion_inj {r other : Reference} (owner : other.owner = r.owner)
    (entity : other.entity = r.entity) :
    other.joinCriterion = r.joinCriterion ↔ other.route = r.route := by
  unfold joinCriterion table
  rw [owner, entity]
  constructor
  · intro eq
    cases way : other.route with
    | link field =>
      cases way' : r.route with
      | link field' =>
        rw [way, way'] at eq
        cases eq
        rfl
      | rows field' =>
        rw [way, way'] at eq
        exact Criterion.noConfusion (eq.trans (childRowsOf_eq _ _ _))
    | rows field =>
      cases way' : r.route with
      | link field' =>
        rw [way, way'] at eq
        exact Criterion.noConfusion ((childRowsOf_eq _ _ _).symm.trans eq)
      | rows field' =>
        rw [way, way'] at eq
        exact congrArg _ (childRowsOf_inj.1 eq)
  · intro way
    rw [way]

end Selection

namespace Usage

open Selection

variable {c : Catalog} {u : Usage} {us : List Usage} {q : Query} {own : Table} {r : Reference}
  {refs : List Reference}

/-- Whether a use reads the column of a reference that a text makes: selects it, or tests it. -/
inductive Reads (c : Catalog) (own : Table) : Reference → Usage → Prop
  | select {text : String} {r : Reference}
    (made : Reference.parse c own.entity text = .ok (some r)) : Reads c own r (.select r)
  | resolve {text : String} {r : Reference} (entity : Option String)
    (made : Reference.parse c own.entity text = .ok (some r)) : Reads c own r (.resolve text entity)
  | filter {f : Filter.Condition} {r : Reference} {op : Filter.Operator} {value : Filter.Operand}
    {criterion : Criterion} (made : Reference.parse c own.entity f.field = .ok (some r))
    (alone : f.other? own = none) (parsed : Filter.Operator.parse f.operator = .ok op)
    (read : Filter.Operand.ofJson f.value = .ok value)
    (tests : Filter.criterionOf c op r.column value = .ok criterion) : Reads c own r (.filter f)

theorem Reads.made (h : Reads c own r u) : ∃ text,
    Reference.parse c own.entity text = .ok (some r) := by
  cases h with
  | select made => exact ⟨_, made⟩
  | resolve _ made => exact ⟨_, made⟩
  | filter made _ _ _ _ => exact ⟨_, made⟩

theorem Reads.joins_eq (h : Reads c own r u) : u.joins c own = [r.toJoin] := by
  have related {text : String} (made : Reference.parse c own.entity text = .ok (some r)) :
      Filter.related? c own text = some r := by
    unfold Filter.related?
    rw [made]
    rfl
  cases h with
  | select _ => rfl
  | resolve _ made =>
    rw [joins, related made]
    rfl
  | filter made alone _ _ _ =>
    rw [joins, Filter.Condition.joins, Filter.Condition.childJoin?, alone, related made]
    rfl

theorem Reads.apply_ok (h : Reads c q.table r u) : ∃ q', u.apply c q = .ok q' := by
  cases h with
  | select _ => exact ⟨_, rfl⟩
  | resolve entity made => exact ⟨_, rfl⟩
  | @filter f _ _ _ _ made alone parsed read tests =>
    have other : Filter.joinOther c q f = .ok q := by
      unfold Filter.joinOther
      rw [alone]
    exact ⟨_, Filter.applyCondition_eq_ok.2 ⟨_, q, _, _, _, _, parsed, other,
      Filter.resolveField_iff.2 (Filter.resolve_of_reference made), read, tests, rfl⟩⟩

theorem run_of_reads (reads : List.Forall₂ (Reads c own) refs us) (home : q.table = own) :
    ∃ q', run c us q = .ok q' := by
  induction reads generalizing q with
  | nil => exact ⟨q, rfl⟩
  | cons first others ih =>
    rw [← home] at first
    obtain ⟨a, applied⟩ := first.apply_ok
    obtain ⟨q', rest⟩ := ih ((joined_apply applied).table.trans home)
    exact ⟨q', run_cons.2 ⟨a, applied, rest⟩⟩

theorem joins_of_reads (reads : List.Forall₂ (Reads c own) refs us) :
    us.flatMap (joins c own) = refs.map Reference.toJoin := by
  induction reads with
  | nil => rfl
  | cons first _ ih =>
    rw [List.flatMap_cons, List.map_cons, first.joins_eq, ih, List.singleton_append]

theorem owner_of_reads (reads : List.Forall₂ (Reads c own) refs us) :
    ∀ r ∈ refs, r.owner = own.entity := by
  induction reads with
  | nil => nofun
  | cons first _ ih =>
    obtain ⟨text, made⟩ := first.made
    exact List.forall_mem_cons.2 ⟨(Reference.leads_of_parse made).1, ih⟩

/-- Where references are used one after another, the table of each is joined once, by the join of
the first of them that leads to the same entity. This is the reference's own join if, and only if,
the first one takes the same way. -/
theorem join_of_reads (fresh : q.joins = []) (reads : List.Forall₂ (Reads c q.table) refs us) :
    ∃ q', run c us q = .ok q' ∧ (q'.joins.map Join.table).Nodup ∧ ∀ r ∈ refs, ∃ first,
      refs.find? (·.entity == r.entity) = some first ∧
      (∀ j, j ∈ q'.joins ∧ j.table = r.table ↔ j = ⟨r.table, first.joinCriterion⟩) ∧
      (first.joinCriterion = r.joinCriterion ↔ first.route = r.route) := by
  obtain ⟨q', used⟩ := run_of_reads reads rfl
  have joins' : q'.joins = Join.extend [] (refs.map Reference.toJoin) := by
    rw [(joined_run used).joins, fresh, joins_of_reads reads]
  have once : (q'.joins.map Join.table).Nodup := by
    rw [joins']
    exact Join.nodup_extend List.nodup_nil
  refine ⟨q', used, once, fun r mem => ?_⟩
  obtain ⟨first, leads⟩ : ∃ first, refs.find? (·.entity == r.entity) = some first := by
    rw [← Option.isSome_iff_exists, List.find?_isSome]
    exact ⟨r, mem, beq_self_eq_true _⟩
  have entity : first.entity = r.entity := by simpa using List.find?_some leads
  -- The criteria tell the ways apart because both references have the queried entity as owner.
  have owners := owner_of_reads reads
  have owner : first.owner = r.owner :=
    (owners first (List.mem_of_find?_eq_some leads)).trans (owners r mem).symm
  have found : q'.joins.find? (·.table == r.table) = some first.toJoin := by
    have target : (fun r' : Reference => r'.toJoin.table == r.table) =
        fun r' => r'.entity == r.entity := by
      funext r'
      rw [Bool.eq_iff_iff, beq_iff_eq, beq_iff_eq]
      exact Table.ofEntity_inj
    rw [joins', Join.find?_extend, List.nil_append, List.find?_map]
    change (refs.find? (fun r' => r'.toJoin.table == r.table)).map _ = _
    rw [target, leads]
    rfl
  have join : first.toJoin = ⟨r.table, first.joinCriterion⟩ :=
    congrArg (Join.mk · first.joinCriterion) (congrArg Table.ofEntity entity)
  rw [join] at found
  refine ⟨first, leads, fun j => ⟨?_, ?_⟩, Reference.joinCriterion_inj owner entity⟩
  · rintro ⟨mem, same⟩
    have again := Join.find?_table once mem
    rw [same, found] at again
    exact (Option.some.inj again).symm
  · rintro rfl
    exact ⟨List.mem_of_find?_eq_some found, rfl⟩

theorem join_of_reads_assignees :
    let refs : List Reference := [⟨"User", "email", "Task", .link "assigned_to", none⟩,
      ⟨"Project", "title", "Task", .link "project", none⟩,
      ⟨"User", "name", "Task", .link "assigned_to", none⟩]
    let us : List Usage := [.select ⟨"User", "email", "Task", .link "assigned_to", none⟩,
      .filter ⟨none, "project.title", "=", .str "x"⟩, .resolve "assigned_to.name" none]
    ∃ q', run linkedTasks us (.new .select (.ofEntity "Task") .mariadb) = .ok q' ∧
      ∀ r ∈ refs, ∀ j, j ∈ q'.joins ∧ j.table = r.table ↔ j = r.toJoin := by
  intro refs us
  have email : Reference.parse linkedTasks (Table.ofEntity "Task").entity "assigned_to.email" =
    .ok (some ⟨"User", "email", "Task", .link "assigned_to", none⟩) := rfl
  have reads : List.Forall₂ (Reads linkedTasks (.ofEntity "Task")) refs us :=
    .cons (.select email) <| .cons (.filter rfl rfl rfl rfl rfl) <| .cons (.resolve none rfl) .nil
  obtain ⟨q', used, _, each⟩ := join_of_reads
    (q := .new .select (.ofEntity "Task") .mariadb) rfl reads
  refine ⟨q', used, fun r mem j => ?_⟩
  obtain ⟨first, found, join, same⟩ := each r mem
  have way : ∀ a ∈ refs, ∀ b ∈ refs, a.entity = b.entity → a.route = b.route := by decide
  rw [join, same.2 (way first (List.mem_of_find?_eq_some found) r mem
    (by simpa using List.find?_some found))]
  rfl

/-- The mail address of a task's reviewer is read through the link to its assignee. -/
theorem join_of_assignee_for_reviewer :
    let assignee : Reference := ⟨"User", "email", "Task", .link "assigned_to", none⟩
    let reviewer : Reference := ⟨"User", "email", "Task", .link "reviewer", none⟩
    Reference.parse linkedTasks "Task" "assigned_to.email" = .ok (some assignee) ∧
    Reference.parse linkedTasks "Task" "reviewer.email" = .ok (some reviewer) ∧
    ∃ q', run linkedTasks [.select assignee, .select reviewer]
        (.new .select (.ofEntity "Task") .mariadb) = .ok q' ∧
      q'.joins = [⟨reviewer.table, assignee.joinCriterion⟩] ∧
      assignee.joinCriterion ≠ reviewer.joinCriterion := by
  intro assignee reviewer
  refine ⟨rfl, rfl, _, rfl, rfl, ?_⟩
  have ways : assignee.joinCriterion = reviewer.joinCriterion ↔ assignee.route = reviewer.route :=
    Reference.joinCriterion_inj rfl rfl
  rw [Ne, ways]
  decide

end Usage

end ScopedQuery
