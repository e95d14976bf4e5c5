import ScopedQuery.Filter.Compile
import ScopedQuery.Proofs.Clause.Labelling
import ScopedQuery.Proofs.Outcome

set_option autoImplicit false

namespace ScopedQuery

open Sql Outcome

open Clause (ColumnText)

theorem Selection.Reference.parse_of_pointless {c : Catalog} {owner text : String}
    (absent : '.' ∉ text.toList) : parse c owner text = .ok none := by
  unfold parse
  dsimp only
  rw [if_pos (by simpa using absent)]

theorem Selection.Reference.point_mem_of_parse {c : Catalog} {owner text : String} {r : Reference}
    (h : parse c owner text = .ok (some r)) : '.' ∈ text.toList := by
  by_contra absent
  rw [parse_of_pointless absent] at h
  cases h

namespace Filter

variable {c : Catalog} {q q' : Query}

def Condition.other? (own : Table) (f : Condition) : Option String :=
  f.entity.filter fun e => e != own.entity

def homeTable (own : Table) (entity : Option String) : Table :=
  (entity.map Table.ofEntity).getD own

def joinOther (c : Catalog) (q : Query) (f : Condition) : Result Query :=
  match f.other? q.table with
  | some e => joinChild c q e
  | none => .ok q

theorem joinChild_eq_ok {entity : String} : joinChild c q entity = .ok q' ↔
    Clause.isEntityName entity.toList ∧ (q.isJoined (.ofEntity entity) ∧ q' = q ∨
      q.isJoined (.ofEntity entity) = false ∧ c.isChildEntity entity = .ok true ∧
        q' = q.leftJoin (.ofEntity entity)
          (Selection.childRowsOf (.ofEntity entity) q.table.entity none)) := by
  unfold joinChild
  cases named : Clause.isEntityName entity.toList with
  | false =>
    simp only [Bool.not_false, ↓reduceIte]
    exact ⟨nofun, nofun⟩
  | true =>
    simp only [Bool.not_true, Bool.false_eq_true, ↓reduceIte]
    cases joined : q.isJoined (.ofEntity entity) with
    | true =>
      simp only [↓reduceIte]
      constructor
      · rintro ⟨⟩
        exact ⟨trivial, .inl ⟨trivial, rfl⟩⟩
      · rintro ⟨_, ⟨_, rfl⟩ | ⟨⟨⟩, _⟩⟩
        rfl
    | false =>
      simp only [Bool.false_eq_true, ↓reduceIte]
      constructor
      · intro h
        obtain ⟨isChild, found, h⟩ := bind_eq_ok.1 h
        cases isChild with
        | false => cases h
        | true =>
          cases h
          exact ⟨trivial, .inr ⟨trivial, found, rfl⟩⟩
      · rintro ⟨_, ⟨⟨⟩, _⟩ | ⟨_, found, rfl⟩⟩
        exact bind_eq_ok.2 ⟨true, found, rfl⟩

section Field

variable {field : String} {entity : Option String} {column : Column}

theorem resolve_of_reference {r : Selection.Reference}
    (read : Selection.Reference.parse c q.table.entity field = .ok (some r)) :
    resolve c q field entity = (.ok r.column, r.join q) := by
  have point := Selection.Reference.point_mem_of_parse read
  have solid : Text.isBlankText field.toList = false :=
    List.all_eq_false.2 ⟨'.', point, by decide⟩
  have special : Clause.hasSpecialChar field.toList := List.any_eq_true.2 ⟨'.', point, by decide⟩
  unfold resolve
  simp only [solid, special, read, Bool.not_true, Bool.false_eq_true, ↓reduceIte]

theorem resolve_of_written {w : ColumnText}
    (other : Selection.Reference.parse c q.table.entity field = .ok none)
    (read : ColumnText.parse? field.toList = some w)
    (resolved : w.resolve? (homeTable q.table entity) = some column) :
    resolve c q field entity = (.ok column, q) := by
  obtain ⟨x, first, begins⟩ := (ColumnText.parse?_eq_some.1 read).solid.first
  have head : x ∈ field.toList := List.mem_of_mem_head? first
  have solid : Text.isBlankText field.toList = false :=
    List.all_eq_false.2 ⟨x, head, by simp [begins]⟩
  unfold resolve
  simp only [solid, Bool.false_eq_true, ↓reduceIte]
  cases special : Clause.hasSpecialChar field.toList with
  | true =>
    have found : (ColumnText.parse? field.toList).bind
        (ColumnText.resolve? ((entity.map Table.ofEntity).getD q.table)) = some column :=
      Option.bind_eq_some_iff.2 ⟨w, read, resolved⟩
    simp only [other, found, Bool.not_true, Bool.false_eq_true, ↓reduceIte]
  | false =>
    have bare := ColumnText.parse?_of_bare (List.ne_nil_of_mem head) special
    rw [String.ofList_toList, read] at bare
    cases bare
    cases resolved
    rfl

/-- A field is a reference, whose table is joined, or else it is the text of a column. -/
theorem resolve_eq_ok : resolve c q field entity = (.ok column, q') ↔
    (∃ r, Selection.Reference.parse c q.table.entity field = .ok (some r) ∧ column = r.column ∧
      q' = r.join q) ∨
    Selection.Reference.parse c q.table.entity field = .ok none ∧ q' = q ∧
      ∃ w, ColumnText.parse? field.toList = some w ∧
        w.resolve? (homeTable q.table entity) = some column := by
  constructor
  · intro h
    unfold resolve at h
    dsimp only at h
    split at h
    · cases h
    next solid =>
    split at h
    · next bare =>
      cases h
      have plain : Clause.hasSpecialChar field.toList = false := by simpa using bare
      have other : Selection.Reference.parse c q.table.entity field = .ok none :=
        Selection.Reference.parse_of_pointless fun mem => by
          have word := List.any_eq_false.1 plain '.' mem
          exact word (by decide)
      have some : field.toList ≠ [] := by
        intro none
        rw [none] at solid
        exact solid rfl
      have read := ColumnText.parse?_of_bare some plain
      rw [String.ofList_toList] at read
      exact .inr ⟨other, rfl, _, read, rfl⟩
    split at h
    · cases h
    · next read =>
      cases h
      exact .inl ⟨_, read, rfl, rfl⟩
    · next read =>
      split at h
      · next found =>
        cases h
        obtain ⟨w, written, resolved⟩ := Option.bind_eq_some_iff.1 found
        exact .inr ⟨read, rfl, w, written, resolved⟩
      · cases h
  · rintro (⟨r, read, rfl, rfl⟩ | ⟨other, rfl, w, read, resolved⟩)
    · exact resolve_of_reference read
    · exact resolve_of_written other read resolved

/-- A field that is refused leaves the query as it was. -/
theorem query_of_refused {fault : QueryError} (h : resolve c q field entity = (.error fault, q')) :
    q' = q := by
  unfold resolve at h
  dsimp only at h
  split at h
  · cases h
    rfl
  split at h
  · cases h
  split at h
  · cases h
    rfl
  · cases h
  · split at h
    · cases h
    · cases h
      rfl

theorem resolveField_iff : resolveField c q field entity = .ok (column, q') ↔
    resolve c q field entity = (.ok column, q') := by
  unfold resolveField
  obtain ⟨answer, q₁⟩ := resolve c q field entity
  cases answer <;> simp [Except.map]

theorem resolveField_eq_ok : resolveField c q field entity = .ok (column, q') ↔
    (∃ r, Selection.Reference.parse c q.table.entity field = .ok (some r) ∧ column = r.column ∧
      q' = r.join q) ∨
    Selection.Reference.parse c q.table.entity field = .ok none ∧ q' = q ∧
      ∃ w, ColumnText.parse? field.toList = some w ∧
        w.resolve? (homeTable q.table entity) = some column :=
  resolveField_iff.trans resolve_eq_ok

end Field

theorem applyCondition_eq_ok {f : Condition} : applyCondition c q f = .ok q' ↔
    ∃ op joined column resolved value criterion, Operator.parse f.operator = .ok op ∧
      joinOther c q f = .ok joined ∧
      resolveField c joined f.field (f.other? q.table) = .ok (column, resolved) ∧
      Operand.ofJson f.value = .ok value ∧ criterionOf c op column value = .ok criterion ∧
      q' = resolved.restrict criterion := by
  unfold applyCondition joinOther
  obtain ⟨other, eq⟩ : ∃ other, f.other? q.table = other := ⟨_, rfl⟩
  rw [eq]
  constructor
  · intro h
    obtain ⟨op, parsed, h⟩ := bind_eq_ok.1 h
    -- What follows the join is the same on both branches; it is named before they are told apart.
    extract_lets entity behind at h
    obtain rfl : entity = other := eq
    clear_value entity
    have join : ∃ joined, (match entity with
        | some e => joinChild c q e
        | none => .ok q) = .ok joined ∧ behind joined = .ok q' := by
      cases entity with
      | none => exact ⟨q, rfl, h⟩
      | some e => exact bind_eq_ok.1 h
    obtain ⟨joined, join, h⟩ := join
    obtain ⟨⟨column, resolved⟩, found, h⟩ := bind_eq_ok.1 h
    dsimp only at h
    split at h
    · cases h
    · next value read =>
      obtain ⟨criterion, made, h⟩ := bind_eq_ok.1 h
      cases h
      exact ⟨op, joined, column, resolved, value, criterion, parsed, join, found, read, made, rfl⟩
  · rintro ⟨op, joined, column, resolved, value, criterion, parsed, join, found, read, made, rfl⟩
    refine bind_eq_ok.2 ⟨op, parsed, ?_⟩
    extract_lets entity behind
    obtain rfl : entity = other := eq
    clear_value entity
    have last : behind joined = .ok (resolved.restrict criterion) := by
      refine bind_eq_ok.2 ⟨_, found, ?_⟩
      dsimp only
      rw [read]
      exact bind_eq_ok.2 ⟨criterion, made, rfl⟩
    cases entity with
    | none =>
      cases join
      exact last
    | some e => exact bind_eq_ok.2 ⟨joined, join, last⟩

theorem Operator.mem_spellings_of_parse {token : String} {op : Operator}
    (h : parse token = .ok op) :
    (String.ofList ((Text.trim token.toList).map Text.lowerLetter), op) ∈ spellings := by
  unfold parse at h
  dsimp only at h
  split at h
  · next found =>
    cases h
    obtain ⟨e, there, rfl⟩ := Option.map_eq_some_iff.1 found
    have name := List.find?_some there
    rw [beq_iff_eq] at name
    rw [← name]
    exact List.mem_of_find?_eq_some there
  · cases h

inductive Makes (column : Column) (value : Operand) : Operator → Criterion → Prop
  /-- The relatives of a record are told by their names, of which there is always one. -/
  | lineage {l : Lineage} {names : List String} (some : names ≠ []) :
    Makes column value (.lineage l) (.member column.term (names.map Term.text) l.isNegated)
  | null {op : Operator} (flat : ∀ l, op ≠ .lineage l) (null : value.isNull) :
    Makes column value op (.isNull column.term (op == .compare .ne))
  | compare (op : BinaryOp) (given : value.isNull = false) :
    Makes column value (.compare op) (.compare column.term op value.term)
  | like (negated : Bool) (given : value.isNull = false) :
    Makes column value (.like negated) (.like column.term value.term negated)
  | member (negated : Bool) (given : value.isNull = false) :
    Makes column value (.member negated)
      (.member column.term (Operator.memberValues value) negated)
  | isSet (negated : Bool) (given : value.isNull = false) :
    Makes column value .isSet (.isNull column.term negated)
  | between {low high : Literal} (ends : value = .list [low, high]) :
    Makes column value .between (.between column.term (.literal low) (.literal high))
  | regex (given : value.isNull = false) :
    Makes column value .regex (.regex column.term value.term)

section Criteria

variable {op : Operator} {column : Column} {value : Operand} {criterion : Criterion}

theorem makes_of_lineageCriterion {l : Lineage}
    (h : lineageCriterion c column value l = .ok criterion) :
    Makes column value (.lineage l) criterion := by
  unfold lineageCriterion at h
  obtain ⟨declared, _, h⟩ := bind_eq_ok.1 h
  dsimp only at h
  split at h
  · cases h
  · obtain ⟨names, _, h⟩ := bind_eq_ok.1 h
    cases h
    refine .lineage ?_
    split
    · exact List.cons_ne_nil _ _
    · next some => exact fun none => some (List.isEmpty_iff.2 none)

theorem makes_of_build (given : value.isNull = false)
    (h : op.build column.term value = .ok criterion) : Makes column value op criterion := by
  cases op with
  | compare op =>
    cases h
    exact .compare op given
  | like negated =>
    cases h
    exact .like negated given
  | member negated =>
    cases h
    exact .member negated given
  | isSet =>
    simp only [Operator.build] at h
    split at h
    · cases h
      exact .isSet _ given
    · cases h
  | between =>
    simp only [Operator.build] at h
    split at h
    · cases h
      exact .between rfl
    · cases h
  | regex =>
    cases h
    exact .regex given
  | lineage relation => cases h

theorem makes_of_criterionOf (h : criterionOf c op column value = .ok criterion) :
    Makes column value op criterion := by
  unfold criterionOf at h
  split at h
  · exact makes_of_lineageCriterion h
  · next flat =>
    split at h
    · next null =>
      cases h
      exact .null flat null
    · next given => exact makes_of_build (Bool.not_eq_true _ ▸ given) h

theorem literal_of_mem_memberValues {t : Term} (mem : t ∈ Operator.memberValues value) :
    ∃ v, t = .literal v := by
  unfold Operator.memberValues at mem
  split at mem
  · exact ⟨_, List.mem_singleton.1 mem⟩
  · obtain ⟨item, _, rfl⟩ := List.mem_map.1 mem
    exact ⟨_, rfl⟩
  · exact ⟨_, List.mem_singleton.1 mem⟩
  · obtain ⟨v, _, rfl⟩ := List.mem_map.1 mem
    exact ⟨v, rfl⟩

end Criteria

end Filter

end ScopedQuery
