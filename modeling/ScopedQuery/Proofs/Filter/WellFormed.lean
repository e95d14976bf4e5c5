import ScopedQuery.Proofs.Joins.Sequence
import ScopedQuery.Proofs.Request.Textual
import ScopedQuery.Proofs.Tables.Stages

set_option autoImplicit false

namespace ScopedQuery

open Sql Outcome

/-! ### Well-formed terms and criteria -/

namespace Sql

mutual

/-- Whether a term has neither nulls nor empty tuples in it. -/
inductive Term.WellFormed : Term → Prop
  | column (c : Column) : Term.WellFormed (.column c)
  | star (table : Option Table) : Term.WellFormed (.star table)
  | literal {v : Literal} (valued : v ≠ .null) : Term.WellFormed (.literal v)
  | tuple {items : List Term} (filled : items ≠ []) (each : ∀ t ∈ items, Term.WellFormed t) :
    Term.WellFormed (.tuple items)
  | position (n : Nat) : Term.WellFormed (.position n)
  | call {function : String} {args : List Term} {label : Option String}
    (each : ∀ t ∈ args, Term.WellFormed t) : Term.WellFormed (.call function args label)
  | binary {left right : Term} {op : BinaryOp} (hl : Term.WellFormed left)
    (hr : Term.WellFormed right) : Term.WellFormed (.binary left op right)
  | datePart (p : DatePart) : Term.WellFormed (.datePart p)
  | condition {c : Criterion} (inside : Criterion.WellFormed c) : Term.WellFormed (.condition c)

/-- Whether the terms of a criterion are well formed, its lists have values in them and its ranges
end in values. Of a condition in SQL nothing is known. -/
inductive Criterion.WellFormed : Criterion → Prop
  | compare {left right : Term} {op : BinaryOp} (hl : Term.WellFormed left)
    (hr : Term.WellFormed right) : Criterion.WellFormed (.compare left op right)
  | member {t : Term} {values : List Term} {negated : Bool} (ht : Term.WellFormed t)
    (filled : values ≠ []) (each : ∀ v ∈ values, Term.WellFormed v) :
    Criterion.WellFormed (.member t values negated)
  | isNull {t : Term} {negated : Bool} (ht : Term.WellFormed t) :
    Criterion.WellFormed (.isNull t negated)
  | like {t pattern : Term} {negated : Bool} (ht : Term.WellFormed t)
    (hp : Term.WellFormed pattern) : Criterion.WellFormed (.like t pattern negated)
  | regex {t pattern : Term} (ht : Term.WellFormed t) (hp : Term.WellFormed pattern) :
    Criterion.WellFormed (.regex t pattern)
  | between {t : Term} {low high : Literal} (ht : Term.WellFormed t) (hl : low ≠ .null)
    (hh : high ≠ .null) : Criterion.WellFormed (.between t (.literal low) (.literal high))
  | conj {items : List Criterion} (each : ∀ c ∈ items, Criterion.WellFormed c) :
    Criterion.WellFormed (.conj items)
  | disj {items : List Criterion} (each : ∀ c ∈ items, Criterion.WellFormed c) :
    Criterion.WellFormed (.disj items)
  | neg {inner : Criterion} (inside : Criterion.WellFormed inner) :
    Criterion.WellFormed (.neg inner)

end

theorem Term.wellFormed_literals {vs : List Literal} (valued : ∀ v ∈ vs, v ≠ .null) :
    ∀ t ∈ vs.map Term.literal, t.WellFormed :=
  List.forall_mem_map.2 fun v mem => .literal (valued v mem)

theorem Term.wellFormed_text (s : String) : (Term.text s).WellFormed := .literal nofun

theorem Column.wellFormed_equals (column : Column) {t : Term} (h : t.WellFormed) :
    (column.equals t).WellFormed :=
  .compare (.column column) h

theorem Criterion.WellFormed.and {c other : Criterion} (h : c.WellFormed) (h' : other.WellFormed) :
    (c.and other).WellFormed := by
  unfold Criterion.and
  split
  · next items =>
    cases h with
    | conj each => exact .conj (List.forall_mem_append.2 ⟨each, by simpa using h'⟩)
  · exact .conj (by simp [h, h'])

def Query.Extends (q q' : Query) (criteria : List Criterion) : Prop :=
  ∃ joins, q' = { q with joins := q.joins ++ joins, wheres := q.wheres ++ criteria } ∧
    ∀ j ∈ joins, j.on.WellFormed

namespace Query.Extends

variable {q q' q'' : Query} {criteria others : List Criterion}

theorem refl (q : Query) : q.Extends q [] :=
  ⟨[], by rw [List.append_nil, List.append_nil], nofun⟩

theorem trans (h : q.Extends q' criteria) (h' : q'.Extends q'' others) :
    q.Extends q'' (criteria ++ others) := by
  obtain ⟨first, rfl, each⟩ := h
  obtain ⟨second, rfl, each'⟩ := h'
  refine ⟨first ++ second, ?_, List.forall_mem_append.2 ⟨each, each'⟩⟩
  rw [List.append_assoc, List.append_assoc]

theorem table (h : q.Extends q' criteria) : q'.table = q.table := by
  obtain ⟨joins, rfl, _⟩ := h
  rfl

theorem restrict (q : Query) (criterion : Criterion) :
    q.Extends (q.restrict criterion) [criterion] :=
  ⟨[], by rw [List.append_nil]; rfl, nofun⟩

theorem leftJoin (q : Query) (table : Table) {on : Criterion} (h : on.WellFormed) :
    q.Extends (q.leftJoin table on) [] :=
  ⟨[⟨table, on⟩], by rw [List.append_nil]; rfl, by simpa using h⟩

end Query.Extends

end Sql

namespace Selection

theorem wellFormed_childRowsOf (child : Table) (owner : String) (field : Option String) :
    (childRowsOf child owner field).WellFormed := by
  have ofOwner := (Column.wellFormed_equals (child.column "parent")
    (.column ((Table.ofEntity owner).column "name"))).and
      (Column.wellFormed_equals (child.column "parenttype") (Term.wellFormed_text owner))
  cases field with
  | none => exact ofOwner
  | some f => exact ofOwner.and (Column.wellFormed_equals _ (Term.wellFormed_text f))

theorem Reference.wellFormed_joinCriterion (r : Reference) : r.joinCriterion.WellFormed := by
  unfold joinCriterion
  split
  · exact Column.wellFormed_equals _ (.column _)
  · exact wellFormed_childRowsOf _ _ _

theorem Reference.extends_join (r : Reference) (q : Query) : q.Extends (r.join q) [] := by
  unfold join Query.ensureJoin
  split
  · exact .refl q
  · exact .leftJoin q _ r.wellFormed_joinCriterion

end Selection

namespace Filter

variable {c : Catalog} {own : Table} {q q' : Query} {column : Column} {value : Operand}
  {criterion : Criterion}

/-! ### Operands -/

theorem eq_null_of_literalOf {j : Json} (h : literalOf j = .ok .null) : j = .null := by
  have number (n : Int) : literalOf.number n ≠ .null := by
    unfold literalOf.number
    split <;> exact Literal.noConfusion
  unfold literalOf at h
  split at h
  · rfl
  · cases h
  · exact absurd (Except.ok.inj h) (number _)
  · cases h
  · cases h
  -- A record is known by a text or a number; without such a name it is refused.
  · split at h
    · cases h
    · exact absurd (Except.ok.inj h) (number _)
    · cases h
    · cases h
  · cases h

inductive Operand.Reads : Json → Operand → Prop
  | null : Operand.Reads .null .null
  | empty : Operand.Reads (.arr []) (.list [.text ""])
  | list {items : List Json} {values : List Literal} (filled : items ≠ [])
    (each : List.Forall₂ (fun item v => item ≠ .null ∧ literalOf item = .ok v) items values) :
    Operand.Reads (.arr items) (.list values)
  | scalar {j : Json} {v : Literal} (given : j ≠ .null) (read : literalOf j = .ok v) :
    Operand.Reads j (.scalar v)

theorem Operand.reads_of_ofJson {j : Json} (h : Operand.ofJson j = .ok value) :
    Operand.Reads j value := by
  unfold Operand.ofJson at h
  split at h
  · cases h
    exact .null
  · cases h
    exact .empty
  · next items filled =>
    obtain ⟨values, read, eq⟩ := bind_eq_ok.1 h
    cases eq
    refine .list filled ((mapM_eq_ok.1 read).imp fun item v made => ?_)
    split at made
    · cases made
    · next some =>
      refine ⟨?_, made⟩
      rintro rfl
      exact some rfl
  · next given _ _ =>
    obtain ⟨v, read, rfl⟩ := map_eq_ok.1 h
    exact .scalar given read

def Operand.WellFormed : Operand → Prop
  | .null => True
  | .scalar v => v ≠ .null
  | .list vs => vs ≠ [] ∧ ∀ v ∈ vs, v ≠ .null

theorem Operand.Reads.wellFormed {j : Json} (h : Operand.Reads j value) : value.WellFormed := by
  cases h with
  | null => exact trivial
  | empty => exact ⟨List.cons_ne_nil _ _, by simp⟩
  | list filled each =>
    refine ⟨?_, fun v mem null => ?_⟩
    · rintro rfl
      exact filled (List.forall₂_nil_right_iff.1 each)
    · obtain ⟨item, _, given, read⟩ := exists_left each mem
      rw [null] at read
      exact given (eq_null_of_literalOf read)
  | scalar given read =>
    rintro rfl
    exact given (eq_null_of_literalOf read)

theorem Operand.wellFormed_term (h : value.WellFormed) (given : value.isNull = false) :
    value.term.WellFormed := by
  cases value with
  | null => cases given
  | scalar v => exact .literal h
  | list vs => exact .tuple (by simpa using h.1) (Term.wellFormed_literals h.2)

theorem Operator.wellFormed_memberValues (h : value.WellFormed) (given : value.isNull = false) :
    memberValues value ≠ [] ∧ ∀ t ∈ memberValues value, t.WellFormed := by
  unfold memberValues
  split
  · cases given
  · next s =>
    exact ⟨by simp, List.forall_mem_map.2 fun _ _ => Term.wellFormed_text _⟩
  · exact ⟨List.cons_ne_nil _ _, by simpa using Term.WellFormed.literal h⟩
  · exact ⟨by simpa using h.1, Term.wellFormed_literals h.2⟩

/-! ### Conditions -/

/-- Whether a token stands for the denial of equality, blanks around it and the case of its letters
forgiven. -/
def Operator.denies (token : String) : Bool :=
  ["!=", "<>"].contains (String.ofList ((Text.trim token.toList).map Text.lowerLetter))

theorem Operator.denies_of_parse {token : String} {op : Operator} (h : parse token = .ok op) :
    denies token = (op == .compare .ne) := by
  have spelled : ∀ e ∈ spellings, ["!=", "<>"].contains e.1 = (e.2 == .compare .ne) := by decide
  exact spelled _ (mem_spellings_of_parse h)

theorem wellFormed_of_makes {op : Operator} (operand : value.WellFormed)
    (h : Makes column value op criterion) : criterion.WellFormed := by
  have tested : column.term.WellFormed := .column column
  cases h with
  | lineage some =>
    exact .member tested (by simpa using some)
      (List.forall_mem_map.2 fun _ _ => Term.wellFormed_text _)
  | null _ _ | isSet _ _ => exact .isNull tested
  | compare op given => exact .compare tested (Operand.wellFormed_term operand given)
  | like negated given => exact .like tested (Operand.wellFormed_term operand given)
  | member negated given =>
    obtain ⟨filled, each⟩ := Operator.wellFormed_memberValues operand given
    exact .member tested filled each
  | between ends =>
    subst ends
    exact .between tested (operand.2 _ (by simp)) (operand.2 _ (by simp))
  | regex given => exact .regex tested (Operand.wellFormed_term operand given)

/-- What a step of a JSON filter becomes: a well-formed condition on the column it tests. With null
as its value it asks whether the column is null, or is not; a range has the two ends that its value
lists. -/
inductive Step.Becomes (c : Catalog) (own : Table) : Step → Criterion → Prop
  | intro {f : Condition} {op : Operator} {column : Column} {criterion : Criterion}
    (operator : Operator.parse f.operator = .ok op) (tests : f.column? c own = some column)
    (wellFormed : criterion.WellFormed)
    (absent : f.value = .null → (∀ l, op ≠ .lineage l) →
      criterion = .isNull column.term (Operator.denies f.operator))
    (range : f.value ≠ .null → op = .between → ∃ low high a b, f.value = .arr [low, high] ∧
      literalOf low = .ok a ∧ literalOf high = .ok b ∧
        criterion = .between column.term (.literal a) (.literal b)) :
    Becomes c own (.condition f) criterion

theorem Step.Becomes.wellFormed {step : Step} (h : step.Becomes c own criterion) :
    criterion.WellFormed := by
  cases h
  assumption

theorem Operand.Reads.eq_null {j : Json} (h : Operand.Reads j value) (null : value.isNull) :
    j = .null := by
  cases h with
  | null => rfl
  | empty | list _ _ | scalar _ _ => cases null

theorem Operand.Reads.ends {j : Json} {a b : Literal} (h : Operand.Reads j (.list [a, b])) :
    ∃ low high, j = .arr [low, high] ∧ literalOf low = .ok a ∧ literalOf high = .ok b := by
  cases h with
  | list _ each =>
    obtain _ | ⟨first, _ | ⟨second, _ | _⟩⟩ := each
    exact ⟨_, _, rfl, first.2, second.2⟩

/-! ### Whole filters -/

theorem extends_joinOther {f : Condition} (h : joinOther c q f = .ok q') : q.Extends q' [] := by
  unfold joinOther at h
  split at h
  · obtain ⟨_, ⟨_, rfl⟩ | ⟨_, _, rfl⟩⟩ := joinChild_eq_ok.1 h
    · exact .refl q'
    · exact .leftJoin q _ (Selection.wellFormed_childRowsOf _ _ _)
  · cases h
    exact .refl q

theorem extends_resolveField {field : String} {entity : Option String}
    (h : resolveField c q field entity = .ok (column, q')) : q.Extends q' [] := by
  rcases resolveField_eq_ok.1 h with ⟨r, _, _, rfl⟩ | ⟨_, rfl, _⟩
  · exact r.extends_join q
  · exact .refl q'

theorem becomes_of_applyCondition {f : Condition} (h : applyCondition c q f = .ok q') :
    ∃ criterion, q.Extends q' [criterion] ∧ (Step.condition f).Becomes c q.table criterion := by
  obtain ⟨op, joined, column, resolved, value, criterion, operator, other, field, read, made,
    rfl⟩ := applyCondition_eq_ok.1 h
  have first := extends_joinOther other
  have second := extends_resolveField field
  rw [← first.table] at field
  have tests := (column?_of_resolveField field).1
  rw [first.table] at tests
  have reads := Operand.reads_of_ofJson read
  have makes := makes_of_criterionOf made
  refine ⟨criterion, (first.trans second).trans (.restrict resolved criterion),
    .intro operator tests (wellFormed_of_makes reads.wellFormed makes) ?_ ?_⟩
  · intro null flat
    rw [null] at read
    cases read
    rw [Operator.denies_of_parse operator]
    cases makes with
    | lineage _ => exact absurd rfl (flat _)
    | null _ _ => rfl
    | compare _ given | like _ given | member _ given | isSet _ given | regex given => cases given
    | between ends => cases ends
  · rintro given rfl
    cases makes with
    | null _ null => exact absurd (reads.eq_null null) given
    | between ends =>
      rw [ends] at reads
      obtain ⟨low, high, eq, first, second⟩ := reads.ends
      exact ⟨low, high, _, _, eq, first, second, rfl⟩

theorem becomes_of_applySteps {steps : List Step} (written : ∀ r, .criterion r ∉ steps)
    (h : steps.foldlM (applyStep c) q = .ok q') :
    ∃ criteria, q.Extends q' criteria ∧ List.Forall₂ (Step.Becomes c q.table) steps criteria := by
  induction steps generalizing q with
  | nil =>
    cases h
    exact ⟨[], .refl _, .nil⟩
  | cons step steps ih =>
    rw [List.foldlM_cons] at h
    obtain ⟨a, applied, others⟩ := bind_eq_ok.1 h
    cases step with
    | criterion r => exact absurd List.mem_cons_self (written r)
    | malformed fault => cases applied
    | condition f =>
      obtain ⟨criterion, first, becomes⟩ := becomes_of_applyCondition applied
      obtain ⟨criteria, rest, others⟩ :=
        ih (fun r mem => written r (List.mem_cons_of_mem _ mem)) others
      rw [first.table] at others
      exact ⟨criterion :: criteria, first.trans rest, .cons becomes others⟩

/-- Conditions and joins are all that a JSON filter adds to a query, behind those that it has. The
conditions are well formed, one for each step of the filter, and so are those of the joins. -/
theorem wellFormed_of_apply {j : Json} (h : apply c q (.json j) = .ok q') : ∃ joins criteria,
    q' = { q with joins := q.joins ++ joins, wheres := q.wheres ++ criteria } ∧
      (∀ join ∈ joins, join.on.WellFormed) ∧ (∀ criterion ∈ criteria, criterion.WellFormed) ∧
        List.Forall₂ (Step.Becomes c q.table) (stepsOfJson j) criteria := by
  obtain ⟨criteria, ⟨joins, eq, each⟩, becomes⟩ :=
    becomes_of_applySteps (fun r => criterion_not_mem_stepsOfJson r j) h
  refine ⟨joins, criteria, eq, each, fun criterion mem => ?_, becomes⟩
  obtain ⟨step, _, made⟩ := exists_left becomes mem
  exact made.wellFormed

/-- Values of all kinds: nulls, texts, truth values, lists with and without values, a record, and
the relatives of a record that has none. -/
def mixedFilter : Json := .arr [
  .obj [("status", .null), ("owner", .arr [.str " <> ", .null]), ("closed", .bool true),
    ("qty", .arr [.str "between", .arr [.int 1, .int 5]]), ("idx", .arr [.str "in", .arr []])],
  .arr [.str "assigned_to.email", .str "not in", .str "a, b"],
  .arr [.str "Task Item", .str "item", .str "=", .obj [("name", .str "Bolt")]],
  .arr [.str "name", .str "descendants of", .null]]

theorem wellFormed_of_apply_mixedFilter : ∃ q',
    apply Usage.linkedTasks (.new .select (.ofEntity "Task") .mariadb) (.json mixedFilter) =
        .ok q' ∧
      q'.wheres.length = 8 ∧ q'.joins.map Join.table = [.ofEntity "User", .ofEntity "Task Item"] ∧
        ∀ criterion ∈ q'.wheres, criterion.WellFormed := by
  obtain ⟨q', applied, conditions, tables⟩ : ∃ q',
      apply Usage.linkedTasks (.new .select (.ofEntity "Task") .mariadb) (.json mixedFilter) =
          .ok q' ∧
        q'.wheres.length = 8 ∧
          q'.joins.map Join.table = [.ofEntity "User", .ofEntity "Task Item"] := ⟨_, rfl, rfl, rfl⟩
  obtain ⟨joins, criteria, eq, _, each, _⟩ := wellFormed_of_apply applied
  refine ⟨q', applied, conditions, tables, ?_⟩
  rw [eq]
  exact each

end Filter

end ScopedQuery
