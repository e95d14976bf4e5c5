import ScopedQuery.Proofs.Sql.Mention
import ScopedQuery.Sql.Statement

set_option autoImplicit false

namespace ScopedQuery.Sql

variable {column : Column}

namespace Term

variable {t : Term}

theorem mentions_iff : t.Mentions column ↔ t = .column column ∨
    (∃ p ∈ t.parts, p.Mentions column) ∨ ∃ c, t = .condition c ∧ c.Mentions column := by
  constructor
  · intro h
    cases h with
    | itself => exact .inl rfl
    | part mem inside => exact .inr (.inl ⟨_, mem, inside⟩)
    | condition inside => exact .inr (.inr ⟨_, rfl, inside⟩)
  · rintro (rfl | ⟨p, mem, inside⟩ | ⟨c, rfl, inside⟩)
    · exact .itself
    · exact .part mem inside
    · exact .condition inside

@[simp]
theorem mentions_column {c : Column} : (Term.column c).Mentions column ↔ column = c := by
  rw [mentions_iff]
  simp [eq_comm]

@[simp]
theorem not_mentions_literal (v : Literal) : ¬ (Term.literal v).Mentions column := by
  rw [mentions_iff]
  simp

@[simp]
theorem not_mentions_star (source : Option Table) : ¬ (Term.star source).Mentions column := by
  rw [mentions_iff]
  simp

@[simp]
theorem not_mentions_position (place : Nat) : ¬ (Term.position place).Mentions column := by
  rw [mentions_iff]
  simp

@[simp]
theorem mentions_tuple {items : List Term} :
    (Term.tuple items).Mentions column ↔ ∃ t ∈ items, t.Mentions column := by
  rw [mentions_iff]
  simp

theorem not_mentions_of_literals {ts : List Term} (each : ∀ t ∈ ts, ∃ v, t = .literal v) :
    ∀ t ∈ ts, ¬ t.Mentions column := by
  intro t mem
  obtain ⟨v, rfl⟩ := each t mem
  exact not_mentions_literal v

end Term

namespace Criterion

variable {c other : Criterion} {t left right : Term}

theorem mentions_iff : c.Mentions column ↔
    (∃ t ∈ c.terms, t.Mentions column) ∨ ∃ d ∈ c.parts, d.Mentions column := by
  constructor
  · intro h
    cases h with
    | term mem inside => exact .inl ⟨_, mem, inside⟩
    | part mem inside => exact .inr ⟨_, mem, inside⟩
  · rintro (⟨t, mem, inside⟩ | ⟨d, mem, inside⟩)
    · exact .term mem inside
    · exact .part mem inside

@[simp]
theorem mentions_compare {op : BinaryOp} : (compare left op right).Mentions column ↔
    left.Mentions column ∨ right.Mentions column := by
  rw [mentions_iff]
  simp

@[simp]
theorem mentions_member {values : List Term} {negated : Bool} :
    (member t values negated).Mentions column ↔
      t.Mentions column ∨ ∃ v ∈ values, v.Mentions column := by
  rw [mentions_iff]
  simp

@[simp]
theorem mentions_isNull {negated : Bool} :
    (isNull t negated).Mentions column ↔ t.Mentions column := by
  rw [mentions_iff]
  simp

@[simp]
theorem mentions_like {negated : Bool} : (like left right negated).Mentions column ↔
    left.Mentions column ∨ right.Mentions column := by
  rw [mentions_iff]
  simp

@[simp]
theorem mentions_regex : (regex left right).Mentions column ↔
    left.Mentions column ∨ right.Mentions column := by
  rw [mentions_iff]
  simp

@[simp]
theorem mentions_between {low high : Term} : (between t low high).Mentions column ↔
    t.Mentions column ∨ low.Mentions column ∨ high.Mentions column := by
  rw [mentions_iff]
  simp

@[simp]
theorem mentions_conj {items : List Criterion} :
    (conj items).Mentions column ↔ ∃ c ∈ items, c.Mentions column := by
  rw [mentions_iff]
  simp

@[simp]
theorem mentions_disj {items : List Criterion} :
    (disj items).Mentions column ↔ ∃ c ∈ items, c.Mentions column := by
  rw [mentions_iff]
  simp

@[simp]
theorem not_mentions_raw (sql : String) : ¬ (raw sql).Mentions column := by
  rw [mentions_iff]
  simp

theorem mentions_all {items : List Criterion} :
    (all items).Mentions column ↔ ∃ c ∈ items, c.Mentions column := by
  unfold all
  split <;> simp

theorem mentions_or : (c.or other).Mentions column ↔ c.Mentions column ∨ other.Mentions column := by
  unfold Criterion.or
  split <;> simp [or_and_right, exists_or]

@[simp]
theorem mentions_equals {tested : Column} : (tested.equals t).Mentions column ↔
    column = tested ∨ t.Mentions column := by
  unfold Column.equals Column.term
  simp

theorem mentions_oneOf {tested : Column} {values : List String} :
    (tested.oneOf values).Mentions column ↔ column = tested := by
  unfold Column.oneOf Column.term Term.text
  simp

end Criterion

namespace Query

inductive Mentions (q : Query) (column : Column) : Prop
  | selected {t : Term} (mem : t ∈ q.selects) (inside : t.Mentions column)
  | joined {j : Join} (mem : j ∈ q.joins) (inside : j.on.Mentions column)
  | tested {criterion : Criterion} (mem : criterion ∈ q.wheres) (inside : criterion.Mentions column)
  | grouped {t : Term} (mem : t ∈ q.groupBys) (inside : t.Mentions column)
  | ordered {o : Ordering} (mem : o ∈ q.orderBys) (inside : o.term.Mentions column)

end Query

section Tables

variable {table : Table}

def Term.Refers (t : Term) (table : Table) : Prop := ∃ column, t.Mentions column ∧ column.table = table

def Criterion.Refers (c : Criterion) (table : Table) : Prop :=
  ∃ column, c.Mentions column ∧ column.table = table

def Query.Refers (q : Query) (table : Table) : Prop := ∃ column, q.Mentions column ∧ column.table = table

theorem Query.refers_iff {q : Query} : q.Refers table ↔
    (∃ t ∈ q.selects, t.Refers table) ∨ (∃ j ∈ q.joins, j.on.Refers table) ∨
      (∃ criterion ∈ q.wheres, criterion.Refers table) ∨ (∃ t ∈ q.groupBys, t.Refers table) ∨
        ∃ o ∈ q.orderBys, o.term.Refers table := by
  constructor
  · rintro ⟨column, mentions, home⟩
    cases mentions with
    | selected mem inside => exact .inl ⟨_, mem, column, inside, home⟩
    | joined mem inside => exact .inr (.inl ⟨_, mem, column, inside, home⟩)
    | tested mem inside => exact .inr (.inr (.inl ⟨_, mem, column, inside, home⟩))
    | grouped mem inside => exact .inr (.inr (.inr (.inl ⟨_, mem, column, inside, home⟩)))
    | ordered mem inside => exact .inr (.inr (.inr (.inr ⟨_, mem, column, inside, home⟩)))
  · rintro (⟨_, mem, column, inside, home⟩ | ⟨_, mem, column, inside, home⟩ |
      ⟨_, mem, column, inside, home⟩ | ⟨_, mem, column, inside, home⟩ | ⟨_, mem, column, inside, home⟩)
    · exact ⟨column, .selected mem inside, home⟩
    · exact ⟨column, .joined mem inside, home⟩
    · exact ⟨column, .tested mem inside, home⟩
    · exact ⟨column, .grouped mem inside, home⟩
    · exact ⟨column, .ordered mem inside, home⟩

end Tables

end ScopedQuery.Sql
