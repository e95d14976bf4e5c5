import ScopedQuery.Proofs.Function.Transparency
import ScopedQuery.Proofs.Joins.Way
import ScopedQuery.Proofs.Request.Material
import ScopedQuery.Proofs.Rows.Material
import ScopedQuery.Proofs.Sql.Occurrence
import ScopedQuery.Proofs.Tables.Qualified

set_option autoImplicit false

namespace ScopedQuery.Sql

variable {s : Scope} {d : Dialect} {own table : Table} {column : Column} {n : List Char}

/-- Whether the name of a table stands in front of a point in a text. -/
def Table.QualifiesIn (d : Dialect) (sql : String) (table : Table) : Prop :=
  table.name.toList ∈ Lexeme.qualifiers (d.lexemes sql.toList)

theorem Table.eq_of_toList {t : Table} (h : table.name.toList = t.name.toList) : table = t := by
  cases table
  cases t
  exact congrArg Table.mk (String.toList_injective h)

theorem Scope.mem_qualifiers : n ∈ s.qualifiers table ↔
    (s.qualify ∨ table ≠ s.table) ∧ n = table.name.toList := by
  unfold Scope.qualifiers
  split
  · next shown =>
    rw [Bool.or_eq_true, bne_iff_ne] at shown
    rw [List.mem_singleton, and_iff_right shown]
  · next hidden =>
    rw [Bool.or_eq_true, bne_iff_ne] at hidden
    exact iff_of_false List.not_mem_nil fun shown => hidden shown.1

inductive Criterion.Holds (sql : String) : Criterion → Prop
  | itself : Criterion.Holds sql (.raw sql)
  | part {c p : Criterion} (mem : p ∈ c.parts) (inside : Criterion.Holds sql p) :
    Criterion.Holds sql c

def Criterion.Shows (d : Dialect) (c : Criterion) (table : Table) : Prop :=
  c.Refers table ∨ ∃ sql, c.Holds sql ∧ table.QualifiesIn d sql

theorem Criterion.Shows.of_imp {c p : Criterion} (h : p.Shows d table)
    (mentions : ∀ column, p.Mentions column → c.Mentions column)
    (holds : ∀ sql, p.Holds sql → c.Holds sql) : c.Shows d table := by
  rcases h with ⟨column, inside, home⟩ | ⟨sql, inside, qualifies⟩
  · exact .inl ⟨column, mentions column inside, home⟩
  · exact .inr ⟨sql, holds sql inside, qualifies⟩

theorem Term.mem_qualifiers {t : Term} : n ∈ t.qualifiers s ↔
    (∃ c, t = .column c ∧ n ∈ s.qualifiers c.table) ∨
      (∃ table, t = .star (some table) ∧ n ∈ s.qualifiers table) ∨
      (∃ p ∈ t.parts, n ∈ p.qualifiers s) ∨ ∃ c, t = .condition c ∧ n ∈ c.qualifiers s := by
  cases t with
  | star source => cases source <;> simp [Term.qualifiers]
  | column _ | literal _ | tuple _ | position _ | call _ _ _ | binary _ _ _ | datePart _
  | condition _ => simp [Term.qualifiers, Term.qualifiersOfList_eq_flatMap]

theorem Criterion.mem_qualifiers {c : Criterion} : n ∈ c.qualifiers s ↔
    (∃ t ∈ c.terms, n ∈ t.qualifiers s) ∨ (∃ p ∈ c.parts, n ∈ p.qualifiers s) ∨
      ∃ sql, c = .raw sql ∧ n ∈ Lexeme.qualifiers (s.dialect.lexemes sql.toList) := by
  cases c <;> simp [Criterion.qualifiers, Term.qualifiersOfList_eq_flatMap,
    Criterion.qualifiersOfList_eq_flatMap]

/-! ### Columns that stand in an expression -/

mutual

theorem Term.mem_qualifiers_of_mentions (shown : n ∈ s.qualifiers column.table) : ∀ {t : Term},
    t.Mentions column → n ∈ t.qualifiers s
  | _, .itself => shown
  | _, .part mem inside => Term.mem_qualifiers.2
    (.inr (.inr (.inl ⟨_, mem, Term.mem_qualifiers_of_mentions shown inside⟩)))
  | _, .condition inside => Criterion.mem_qualifiers_of_mentions shown inside

theorem Criterion.mem_qualifiers_of_mentions (shown : n ∈ s.qualifiers column.table) :
    ∀ {c : Criterion}, c.Mentions column → n ∈ c.qualifiers s
  | _, .term mem inside => Criterion.mem_qualifiers.2
    (.inl ⟨_, mem, Term.mem_qualifiers_of_mentions shown inside⟩)
  | _, .part mem inside => Criterion.mem_qualifiers.2
    (.inr (.inl ⟨_, mem, Criterion.mem_qualifiers_of_mentions shown inside⟩))

end

theorem Term.mem_qualifiers_of_refers {t : Term} (other : table ≠ s.table) (h : t.Refers table) :
    table.name.toList ∈ t.qualifiers s := by
  obtain ⟨column, mentions, rfl⟩ := h
  exact mem_qualifiers_of_mentions (Scope.mem_qualifiers.2 ⟨.inr other, rfl⟩) mentions

theorem Criterion.mem_qualifiers_of_shows {c : Criterion} (other : table ≠ s.table)
    (h : c.Shows s.dialect table) : table.name.toList ∈ c.qualifiers s := by
  rcases h with ⟨column, mentions, rfl⟩ | ⟨sql, holds, mem⟩
  · exact mem_qualifiers_of_mentions (Scope.mem_qualifiers.2 ⟨.inr other, rfl⟩) mentions
  · induction holds with
    | itself => exact mem
    | part there _ ih => exact Criterion.mem_qualifiers.2 (.inr (.inl ⟨_, there, ih⟩))

/-! ### Grounded expressions -/

/-- Whether the text of a term shows no tables but a given one and those of columns in the term. -/
def Term.Grounded (own : Table) (t : Term) : Prop :=
  ∀ s table, table.name.toList ∈ t.qualifiers s → table = own ∨ t.Refers table

def Criterion.Grounded (own : Table) (c : Criterion) : Prop :=
  ∀ s table, table.name.toList ∈ c.qualifiers s → table = own ∨ c.Shows s.dialect table

theorem Term.grounded_of_parts {t : Term} (bare : ∀ c, t ≠ .condition c)
    (star : ∀ table, t = .star (some table) → table = own) (parts : ∀ p ∈ t.parts, p.Grounded own) :
    t.Grounded own := by
  intro s table mem
  rcases Term.mem_qualifiers.1 mem with ⟨c, rfl, shown⟩ | ⟨other, rfl, shown⟩ | ⟨p, there, inside⟩ |
    ⟨c, rfl, _⟩
  · obtain rfl := Table.eq_of_toList (Scope.mem_qualifiers.1 shown).2
    exact .inr ⟨c, .itself, rfl⟩
  · obtain rfl := Table.eq_of_toList (Scope.mem_qualifiers.1 shown).2
    exact .inl (star table rfl)
  · refine (parts p there s table inside).imp_right ?_
    rintro ⟨column, mentions, rfl⟩
    exact ⟨column, .part there mentions, rfl⟩
  · exact absurd rfl (bare c)

theorem Criterion.grounded_of_parts {c : Criterion} (terms : ∀ t ∈ c.terms, t.Grounded own)
    (parts : ∀ p ∈ c.parts, p.Grounded own) : c.Grounded own := by
  intro s table mem
  rcases Criterion.mem_qualifiers.1 mem with ⟨t, there, inside⟩ | ⟨p, there, inside⟩ |
    ⟨sql, rfl, raw⟩
  · refine (terms t there s table inside).imp_right ?_
    rintro ⟨column, mentions, rfl⟩
    exact .inl ⟨column, .term there mentions, rfl⟩
  · refine (parts p there s table inside).imp_right fun shows => ?_
    exact shows.of_imp (fun _ => .part there) (fun _ => .part there)
  · exact .inr (.inr ⟨sql, .itself, raw⟩)

theorem Criterion.grounded_of_terms {c : Criterion} (plain : c.parts = [])
    (terms : ∀ t ∈ c.terms, t.Grounded own) : c.Grounded own := by
  refine grounded_of_parts terms ?_
  rw [plain]
  exact List.forall_mem_nil _

@[simp]
theorem Term.grounded_column (c : Column) : (Term.column c).Grounded own :=
  grounded_of_parts nofun nofun nofun

@[simp]
theorem Term.grounded_literal (v : Literal) : (Term.literal v).Grounded own :=
  grounded_of_parts nofun nofun nofun

theorem Term.grounded_tuple {items : List Term} (each : ∀ t ∈ items, t.Grounded own) :
    (Term.tuple items).Grounded own :=
  grounded_of_parts nofun nofun each

theorem Term.inherited_grounded (own : Table) : Function.Inherited (Term.Grounded own) where
  star := grounded_of_parts nofun nofun nofun
  literal := grounded_literal
  datePart _ := grounded_of_parts nofun nofun nofun
  column := grounded_column
  binary _ _ _ hl hr := grounded_of_parts nofun nofun (by simp [hl, hr])
  call _ each := grounded_of_parts nofun nofun each

namespace Criterion

variable {a b : Criterion} {items : List Criterion}

theorem grounded_all (each : ∀ c ∈ items, c.Grounded own) : (all items).Grounded own := by
  unfold all
  split
  · exact each _ (List.mem_singleton_self _)
  · exact grounded_of_parts (List.forall_mem_nil _) each

theorem qualifiers_or (s : Scope) (a b : Criterion) :
    (a.or b).qualifiers s = a.qualifiers s ++ b.qualifiers s := by
  unfold Criterion.or
  split <;> simp [qualifiers, qualifiersOfList_eq_flatMap]

theorem holds_or {sql : String} : (a.or b).Holds sql ↔ a.Holds sql ∨ b.Holds sql := by
  have disj {items : List Criterion} : (disj items).Holds sql ↔ ∃ c ∈ items, c.Holds sql := by
    constructor
    · intro h
      cases h with
      | part mem inside => exact ⟨_, mem, inside⟩
    · rintro ⟨c, mem, inside⟩
      exact .part mem inside
  unfold Criterion.or
  split <;> simp [disj, or_and_right, exists_or]

theorem grounded_or (ha : a.Grounded own) (hb : b.Grounded own) : (a.or b).Grounded own := by
  -- The two criteria are parts of the whole only where the first one is no disjunction itself.
  intro s table mem
  rw [qualifiers_or, List.mem_append] at mem
  rcases mem with inside | inside
  · refine (ha s table inside).imp_right fun shows => ?_
    exact shows.of_imp (fun _ h => mentions_or.2 (.inl h)) (fun _ h => holds_or.2 (.inl h))
  · refine (hb s table inside).imp_right fun shows => ?_
    exact shows.of_imp (fun _ h => mentions_or.2 (.inr h)) (fun _ h => holds_or.2 (.inr h))

theorem grounded_equals (c : Column) {t : Term} (h : t.Grounded own) :
    (c.equals t).Grounded own :=
  grounded_of_terms rfl (by simp [Column.equals, Column.term, h])

theorem grounded_oneOf (c : Column) (names : List String) : (c.oneOf names).Grounded own :=
  grounded_of_terms rfl (by simp [Column.oneOf, Column.term, Term.text])

end Criterion

structure Query.Grounded (q : Query) : Prop where
  selects : ∀ t ∈ q.selects, t.Grounded q.table
  joins : ∀ j ∈ q.joins, j.on.Grounded q.table
  wheres : ∀ c ∈ q.wheres, c.Grounded q.table
  groupBys : ∀ t ∈ q.groupBys, t.Grounded q.table
  orderBys : ∀ o ∈ q.orderBys, o.term.Grounded q.table

end ScopedQuery.Sql

/-! ### Builds -/

namespace ScopedQuery

open Sql Outcome

variable {c : Catalog} {d : Dialect} {own : Table}

theorem Selection.grounded_childRowsOf (table : Table) (owner : String) (field : Option String) :
    (childRowsOf table owner field).Grounded own := by
  rw [childRowsOf_eq]
  refine Criterion.grounded_of_parts (List.forall_mem_nil _) ?_
  have parts (p : Column) (t : Term) (h : t.Grounded own) := Criterion.grounded_equals p h
  cases field <;> simp [parts, Column.term, Term.text]

theorem Filter.grounded_of_criterionOf {op : Operator} {column : Column} {value : Operand}
    {criterion : Criterion} (h : criterionOf c op column value = .ok criterion) :
    criterion.Grounded own := by
  have literals {ts : List Term} (each : ∀ t ∈ ts, ∃ v, t = .literal v) :
      ∀ t ∈ ts, t.Grounded own := by
    intro t mem
    obtain ⟨v, rfl⟩ := each t mem
    exact Term.grounded_literal v
  have operand : value.term.Grounded own := by
    cases value with
    | null | scalar _ => exact Term.grounded_literal _
    | list vs =>
      refine Term.grounded_tuple (literals fun t mem => ?_)
      obtain ⟨v, _, rfl⟩ := List.mem_map.1 mem
      exact ⟨v, rfl⟩
  have members : ∀ t ∈ Operator.memberValues value, t.Grounded own :=
    literals fun t mem => literal_of_mem_memberValues mem
  cases makes_of_criterionOf h with
  | lineage _ =>
    exact Criterion.grounded_of_terms rfl (by simp [Column.term, Term.text])
  | null _ _ | isSet _ _ | between _ =>
    exact Criterion.grounded_of_terms rfl (by simp [Column.term])
  | compare _ _ | like _ _ | regex _ =>
    exact Criterion.grounded_of_terms rfl (by simp [Column.term, operand])
  | member _ _ =>
    refine Criterion.grounded_of_terms rfl ?_
    exact List.forall_mem_cons.2 ⟨Term.grounded_column _, members⟩

namespace Request

theorem material_grounded : Material c d own (Term.Grounded own) (Criterion.Grounded own) where
  star := Term.grounded_of_parts nofun (by rintro _ ⟨⟩; rfl) nofun
  column := Term.grounded_column
  position _ := Term.grounded_of_parts nofun nofun nofun
  call _ _ := (Term.inherited_grounded own).of_parseCall
  child _ _ := Selection.grounded_childRowsOf _ _ _
  reference r := by
    unfold Selection.Reference.joinCriterion
    split
    · exact Criterion.grounded_equals _ (Term.grounded_column _)
    · exact Selection.grounded_childRowsOf _ _ _
  made _ _ _ _ _ _ := Filter.grounded_of_criterionOf

end Request

theorem Access.material_grounded (own : Table) {table : Table} {v : Viewer} :
    Access.Material c table v (Criterion.Grounded own) where
  owner := Criterion.grounded_equals _ (Term.grounded_literal _)
  isNull field :=
    Criterion.grounded_of_terms rfl (by simp [Column.isNull, Column.term])
  oneOf _ := Criterion.grounded_oneOf _
  provided _ _ := Criterion.grounded_of_terms rfl (List.forall_mem_nil _)
  all _ := Criterion.grounded_all
  or _ _ := Criterion.grounded_or

namespace Request

variable {s : Settings} {v : Viewer} {r : Request} {m m' : Memo} {q : Query}

theorem grounded_build (textual : r.Textual) (h : r.build c s v m = (.ok q, m')) :
    q.Grounded ∧ q.assignments = [] := by
  obtain ⟨table, picked, asked, _, selected, arranged, confined⟩ := build_ok h
  have grown := material_grounded.grows textual selected arranged
  have home : asked.table = table := grown.table
  obtain ⟨rules, rfl, grounded⟩ := (Access.material_grounded asked.table).wheres rfl confined
  rw [← home] at grown
  have wheres := grown.wheres.forall_mem (List.forall_mem_nil _)
  exact ⟨⟨grown.selects.forall_mem (List.forall_mem_nil _),
    grown.joins.forall_mem (List.forall_mem_nil _), List.forall_mem_append.2 ⟨wheres, grounded⟩,
    grown.groupBys.forall_mem (List.forall_mem_nil _),
    grown.orderBys.forall_mem (List.forall_mem_nil _)⟩, grown.assignments⟩

end Request

end ScopedQuery
