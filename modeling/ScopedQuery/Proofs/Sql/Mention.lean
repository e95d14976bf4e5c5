import Mathlib.Data.List.Basic
import ScopedQuery.Sql.Term

set_option autoImplicit false

namespace ScopedQuery.Sql

@[simp]
def Term.parts : Term → List Term
  | .tuple items => items
  | .call _ args _ => args
  | .binary left _ right => [left, right]
  | .column _ | .star _ | .literal _ | .position _ | .datePart _ | .condition _ => []

@[simp]
def Criterion.terms : Criterion → List Term
  | .compare left _ right => [left, right]
  | .member term values _ => term :: values
  | .isNull term _ => [term]
  | .like term pattern _ => [term, pattern]
  | .regex term pattern => [term, pattern]
  | .between term low high => [term, low, high]
  | .conj _ | .disj _ | .neg _ | .raw _ => []

@[simp]
def Criterion.parts : Criterion → List Criterion
  | .conj items | .disj items => items
  | .neg inner => [inner]
  | _ => []

mutual

/-- Whether a column stands anywhere in a term. -/
inductive Term.Mentions (column : Column) : Term → Prop
  | itself : Term.Mentions column (.column column)
  | part {t p : Term} (mem : p ∈ t.parts) (inside : Term.Mentions column p) :
    Term.Mentions column t
  | condition {c : Criterion} (inside : Criterion.Mentions column c) :
    Term.Mentions column (.condition c)

inductive Criterion.Mentions (column : Column) : Criterion → Prop
  | term {c : Criterion} {t : Term} (mem : t ∈ c.terms) (inside : Term.Mentions column t) :
    Criterion.Mentions column c
  | part {c d : Criterion} (mem : d ∈ c.parts) (inside : Criterion.Mentions column d) :
    Criterion.Mentions column c

end

namespace Term

variable {t p : Term} {column : Column}

theorem mem_columnsOfList {ts : List Term} :
    column ∈ columnsOfList ts ↔ ∃ t ∈ ts, column ∈ t.columns := by
  induction ts with
  | nil => simp [columnsOfList]
  | cons t ts ih => rw [columnsOfList, List.mem_append, ih, List.exists_mem_cons_iff]

theorem mem_columns_of_part (mem : p ∈ t.parts) (inside : column ∈ p.columns) :
    column ∈ t.columns := by
  cases t with
  | tuple items => exact mem_columnsOfList.2 ⟨p, mem, inside⟩
  | call function args label => exact mem_columnsOfList.2 ⟨p, mem, inside⟩
  | binary left op right =>
    rw [columns, List.mem_append]
    rcases List.mem_pair.1 mem with rfl | rfl
    · exact .inl inside
    · exact .inr inside
  | column _ | star _ | literal _ | position _ | datePart _ | condition _ => cases mem

mutual

theorem mentions_of_mem_columns : ∀ t : Term, column ∈ t.columns → t.Mentions column
  | .column c, mem => by
    rw [columns, List.mem_singleton] at mem
    rw [mem]
    exact .itself
  | .tuple items, mem => by
    obtain ⟨t, there, inside⟩ := mentions_of_mem_columnsOfList items mem
    exact .part there inside
  | .call _ args _, mem => by
    obtain ⟨t, there, inside⟩ := mentions_of_mem_columnsOfList args mem
    exact .part there inside
  | .binary left op right, mem => by
    rw [columns, List.mem_append] at mem
    rcases mem with mem | mem
    · exact .part (List.mem_pair.2 (.inl rfl)) (mentions_of_mem_columns left mem)
    · exact .part (List.mem_pair.2 (.inr rfl)) (mentions_of_mem_columns right mem)

theorem mentions_of_mem_columnsOfList : ∀ ts : List Term, column ∈ columnsOfList ts →
    ∃ t ∈ ts, t.Mentions column
  | t :: ts, mem => by
    rw [columnsOfList, List.mem_append] at mem
    rcases mem with mem | mem
    · exact ⟨t, List.mem_cons_self, mentions_of_mem_columns t mem⟩
    · obtain ⟨t', there, inside⟩ := mentions_of_mem_columnsOfList ts mem
      exact ⟨t', List.mem_cons_of_mem t there, inside⟩

end

/-- Whether every column that stands in a term is one that it is said to refer to. -/
def Transparent (t : Term) : Prop := ∀ column, t.Mentions column → column ∈ t.columns

theorem transparent_of_parts (bare : ∀ c, t ≠ .condition c) (h : ∀ p ∈ t.parts, p.Transparent) :
    t.Transparent := by
  intro column mentions
  cases mentions with
  | itself => simp [columns]
  | part mem inside => exact mem_columns_of_part mem (h _ mem column inside)
  | condition inside => exact absurd rfl (bare _)

end Term

end ScopedQuery.Sql
