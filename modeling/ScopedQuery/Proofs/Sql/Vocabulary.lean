import ScopedQuery.Proofs.Sql.Mention
import ScopedQuery.Sql.Statement

set_option autoImplicit false

namespace ScopedQuery.Sql

structure Vocabulary where
  column : Column → Prop
  table : Table → Prop
  /-- The functions whose calls are parts of other expressions. -/
  function : String → Prop
  outermost : String → Prop
  raw : String → Prop

mutual

/-- Whether a term has no part beyond a vocabulary. A call that is a part has no label. -/
inductive Term.Within (V : Vocabulary) : Term → Prop
  | column {column : Column} (known : V.column column) : Term.Within V (.column column)
  | star {table : Option Table} (known : ∀ t ∈ table, V.table t) : Term.Within V (.star table)
  | literal (v : Literal) : Term.Within V (.literal v)
  | position (n : Nat) : Term.Within V (.position n)
  | datePart (p : DatePart) : Term.Within V (.datePart p)
  | tuple {items : List Term} (each : ∀ t ∈ items, Term.Within V t) : Term.Within V (.tuple items)
  | call {function : String} {args : List Term} (known : V.function function)
    (each : ∀ t ∈ args, Term.Within V t) : Term.Within V (.call function args none)
  | binary {left right : Term} {op : BinaryOp} (hl : Term.Within V left)
    (hr : Term.Within V right) : Term.Within V (.binary left op right)
  | condition {c : Criterion} (inside : Criterion.Within V c) : Term.Within V (.condition c)

inductive Criterion.Within (V : Vocabulary) : Criterion → Prop
  | raw {sql : String} (known : V.raw sql) : Criterion.Within V (.raw sql)
  | made {c : Criterion} (made : ∀ sql, c ≠ .raw sql) (terms : ∀ t ∈ c.terms, Term.Within V t)
    (parts : ∀ p ∈ c.parts, Criterion.Within V p) : Criterion.Within V c

end

inductive Term.SelectedWithin (V : Vocabulary) : Term → Prop
  | part {t : Term} (inside : t.Within V) : SelectedWithin V t
  | call {f : FunctionCall} (known : V.outermost f.function) (labels : ∀ l ∈ f.label, V.outermost l)
    (each : ∀ t ∈ f.args, t.Within V) : SelectedWithin V f.term

structure Query.Within (V : Vocabulary) (q : Query) : Prop where
  table : V.table q.table
  selects : ∀ t ∈ q.selects, t.SelectedWithin V
  joins : ∀ j ∈ q.joins, V.table j.table ∧ j.on.Within V
  wheres : ∀ c ∈ q.wheres, c.Within V
  groupBys : ∀ t ∈ q.groupBys, t.Within V
  orderBys : ∀ o ∈ q.orderBys, o.term.Within V

variable {V : Vocabulary}

namespace Criterion

section Tests

variable {t l r low high : Term}

theorem within_compare (op : BinaryOp) (hl : l.Within V) (hr : r.Within V) :
    (compare l op r).Within V :=
  .made nofun (by simp [hl, hr]) (by simp)

theorem within_member {values : List Term} (negated : Bool) (ht : t.Within V)
    (each : ∀ t ∈ values, t.Within V) : (member t values negated).Within V :=
  .made nofun (List.forall_mem_cons.2 ⟨ht, each⟩) (by simp)

theorem within_isNull (negated : Bool) (ht : t.Within V) : (isNull t negated).Within V :=
  .made nofun (by simp [ht]) (by simp)

theorem within_like (negated : Bool) (hl : l.Within V) (hr : r.Within V) :
    (like l r negated).Within V :=
  .made nofun (by simp [hl, hr]) (by simp)

theorem within_regex (hl : l.Within V) (hr : r.Within V) : (regex l r).Within V :=
  .made nofun (by simp [hl, hr]) (by simp)

theorem within_between (ht : t.Within V) (hl : low.Within V) (hh : high.Within V) :
    (between t low high).Within V :=
  .made nofun (by simp [ht, hl, hh]) (by simp)

end Tests

section Groups

variable {c other : Criterion} {items : List Criterion}

theorem within_conj : (conj items).Within V ↔ ∀ c ∈ items, c.Within V := by
  constructor
  · intro h
    cases h with
    | made _ _ each => exact each
  · intro each
    exact .made (fun _ eq => by cases eq) (by simp) each

theorem within_disj : (disj items).Within V ↔ ∀ c ∈ items, c.Within V := by
  constructor
  · intro h
    cases h with
    | made _ _ each => exact each
  · intro each
    exact .made (fun _ eq => by cases eq) (by simp) each

theorem within_all (each : ∀ c ∈ items, c.Within V) : (all items).Within V := by
  unfold all
  split
  · exact each _ (List.mem_singleton_self _)
  · exact within_conj.2 each

theorem within_and (hc : c.Within V) (ho : other.Within V) : (c.and other).Within V := by
  unfold Criterion.and
  split <;> rw [within_conj]
  · next items =>
    rw [within_conj] at hc
    simpa [or_imp, forall_and, ho] using hc
  · simp [hc, ho]

theorem within_or (hc : c.Within V) (ho : other.Within V) : (c.or other).Within V := by
  unfold Criterion.or
  split <;> rw [within_disj]
  · next items =>
    rw [within_disj] at hc
    simpa [or_imp, forall_and, ho] using hc
  · simp [hc, ho]

end Groups

section Columns

variable {column : Column}

theorem within_equals {t : Term} (known : V.column column) (ht : t.Within V) :
    (column.equals t).Within V :=
  within_compare _ (.column known) ht

theorem within_oneOf (known : V.column column) (values : List String) :
    (column.oneOf values).Within V := by
  refine within_member _ (.column known) fun t mem => ?_
  obtain ⟨s, _, rfl⟩ := List.mem_map.1 mem
  exact .literal _

end Columns

end Criterion

namespace Query.Within

variable {q : Query} {t : Term} {c : Criterion} {other : Table}

theorem new (mode : Mode) (d : Dialect) {table : Table} (known : V.table table) :
    (Query.new mode table d).Within V where
  table := known
  selects := nofun
  joins := nofun
  wheres := nofun
  groupBys := nofun
  orderBys := nofun

theorem select (h : q.Within V) (ht : t.SelectedWithin V) : (q.select t).Within V :=
  { h with selects := List.forall_mem_append.2 ⟨h.selects, by simpa using ht⟩ }

theorem restrict (h : q.Within V) (hc : c.Within V) : (q.restrict c).Within V :=
  { h with wheres := List.forall_mem_append.2 ⟨h.wheres, by simpa using hc⟩ }

theorem leftJoin (h : q.Within V) (known : V.table other) (hc : c.Within V) :
    (q.leftJoin other c).Within V :=
  { h with joins := List.forall_mem_append.2 ⟨h.joins, by simpa using ⟨known, hc⟩⟩ }

theorem ensureJoin (h : q.Within V) (known : V.table other) (hc : c.Within V) :
    (q.ensureJoin other c).Within V := by
  unfold Query.ensureJoin
  split
  · exact h
  · exact h.leftJoin known hc

theorem orderBy (h : q.Within V) (d : Direction) (ht : t.Within V) : (q.orderBy t d).Within V :=
  { h with orderBys := List.forall_mem_append.2 ⟨h.orderBys, by simpa using ht⟩ }

theorem groupBy (h : q.Within V) (ht : t.Within V) : (q.groupBy t).Within V :=
  { h with groupBys := List.forall_mem_append.2 ⟨h.groupBys, by simpa using ht⟩ }

theorem limitTo (h : q.Within V) (n : Nat) : (q.limitTo n).Within V := { h with }

theorem skip (h : q.Within V) (n : Nat) : (q.skip n).Within V := { h with }

theorem addChild (h : q.Within V) (child : ChildQuery) : (q.addChild child).Within V := { h with }

end Query.Within

end ScopedQuery.Sql
