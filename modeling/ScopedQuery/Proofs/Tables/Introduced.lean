import ScopedQuery.Proofs.Lexical.Request
import ScopedQuery.Proofs.Tables.Grounded
import ScopedQuery.Proofs.Tables.Statement

set_option autoImplicit false

/-!
Whether a statement introduces all tables that it puts in front of columns. What selects and what
updates does, once every column is at home in the queried table or in a joined one. What deletes has
its joins in the frozen query, but not in its text, and does so exactly if it tests and sorts by
columns of the queried table alone.
-/

namespace ScopedQuery.Sql

variable {d : Dialect} {table t : Table} {q : Query}

/-! ### Complete criteria -/

namespace Criterion

variable {a b : Criterion} {items : List Criterion}

theorem holds_all {sql : String} : (all items).Holds sql ↔ ∃ c ∈ items, c.Holds sql := by
  unfold all
  split
  · simp
  · constructor
    · intro h
      cases h with
      | part mem inside => exact ⟨_, mem, inside⟩
    · rintro ⟨c, mem, inside⟩
      exact .part mem inside

theorem complete_all (each : ∀ c ∈ items, c.Complete d) : (all items).Complete d := by
  unfold all
  split
  · exact each _ (List.mem_singleton_self _)
  · exact .conj each

theorem complete_or (ha : a.Complete d) (hb : b.Complete d) : (a.or b).Complete d := by
  unfold Criterion.or
  split
  · refine .disj (List.forall_mem_append.2 ⟨?_, List.forall_mem_singleton.2 hb⟩)
    cases ha with
    | tame tame => exact fun c mem => .tame ((tameAll_iff _).1 tame c mem)
    | disj each => exact each
  · exact .disj (List.forall_mem_cons.2 ⟨ha, List.forall_mem_singleton.2 hb⟩)

theorem Holds.not_tame {sql : String} {c : Criterion} (h : c.Holds sql) : ¬ c.Tame := by
  induction h with
  | itself => exact id
  | @part c p mem _ ih =>
    intro tame
    cases c with
    | conj items => exact ih ((tameAll_iff _).1 tame p mem)
    | disj items => exact ih ((tameAll_iff _).1 tame p mem)
    | neg inner =>
      obtain rfl := List.mem_singleton.1 mem
      exact ih tame
    | compare _ _ _ | member _ _ _ | isNull _ _ | like _ _ _ | regex _ _ | between _ _ _ | raw _ =>
      exact List.not_mem_nil mem

end Criterion

/-! ### Tables in the text of a query -/

/-- Whether a table is what a text works on or joins. -/
def Table.IntroducedIn (d : Dialect) (sql : String) (table : Table) : Prop :=
  table.name.toList ∈ Lexeme.sources 0 (d.lexemes sql.toList)

namespace Query

def Holds (q : Query) (sql : String) : Prop := ∃ c ∈ q.wheres, c.Holds sql

def Tests (q : Query) (table : Table) : Prop :=
  (∃ c ∈ q.wheres, c.Shows q.dialect table) ∨ (∃ t ∈ q.groupBys, t.Refers table) ∨
    ∃ o ∈ q.orderBys, o.term.Refers table

/-- Whether every column in a query is one of the queried table or of a joined one, and every
condition in SQL is complete. -/
structure Rooted (q : Query) : Prop where
  columns : ∀ t, q.Refers t → t = q.table ∨ q.isJoined t
  complete : ∀ sql, q.Holds sql → isComplete q.dialect sql
  conditions : ∀ sql, q.Holds sql → ∀ t, t.QualifiesIn q.dialect sql → t = q.table ∨ q.isJoined t

theorem Rooted.home_of_tests (h : q.Rooted) (tests : q.Tests t) : t = q.table ∨ q.isJoined t := by
  rcases tests with ⟨c, mem, refers | ⟨sql, holds, qualifies⟩⟩ | group | order
  · exact h.columns t (refers_iff.2 (.inr (.inr (.inl ⟨c, mem, refers⟩))))
  · exact h.conditions sql ⟨c, mem, holds⟩ t qualifies
  · exact h.columns t (refers_iff.2 (.inr (.inr (.inr (.inl group)))))
  · exact h.columns t (refers_iff.2 (.inr (.inr (.inr (.inr order)))))

theorem mem_tailQualifiers {n : List Char} : n ∈ q.tailQualifiers ↔
    (∃ c ∈ q.wheres, n ∈ c.qualifiers q.scope) ∨ (∃ t ∈ q.groupBys, n ∈ t.qualifiers q.scope) ∨
      ∃ o ∈ q.orderBys, n ∈ o.term.qualifiers q.scope := by
  simp only [tailQualifiers, List.mem_append, List.mem_flatMap, or_assoc]

theorem Grounded.tail (h : q.Grounded) (mem : t.name.toList ∈ q.tailQualifiers) :
    t = q.table ∨ q.Tests t := by
  rcases mem_tailQualifiers.1 mem with ⟨c, there, inside⟩ | ⟨g, there, inside⟩ | ⟨o, there, inside⟩
  · exact (h.wheres c there _ t inside).imp_right fun shows => .inl ⟨c, there, shows⟩
  · exact (h.groupBys g there _ t inside).imp_right fun refers => .inr (.inl ⟨g, there, refers⟩)
  · exact (h.orderBys o there _ t inside).imp_right fun refers => .inr (.inr ⟨o, there, refers⟩)

theorem Tests.mem_tailQualifiers (h : q.Tests t) (other : t ≠ q.table) :
    t.name.toList ∈ q.tailQualifiers := by
  refine Query.mem_tailQualifiers.2 ?_
  rcases h with ⟨c, there, shows⟩ | ⟨g, there, refers⟩ | ⟨o, there, refers⟩
  · exact .inl ⟨c, there, Criterion.mem_qualifiers_of_shows other shows⟩
  · exact .inr (.inl ⟨g, there, Term.mem_qualifiers_of_refers other refers⟩)
  · exact .inr (.inr ⟨o, there, Term.mem_qualifiers_of_refers other refers⟩)

/-- What stands in front of columns is at home where the columns are. -/
theorem Grounded.home (h : q.Grounded) (complete : q.Complete) (rooted : q.Rooted)
    (plain : q.assignments = []) (mem : t.name.toList ∈ q.qualifiers) :
    t = q.table ∨ q.isJoined t := by
  have tail (mem : t.name.toList ∈ q.tailQualifiers) : t = q.table ∨ q.isJoined t :=
    (h.tail mem).elim .inl rooted.home_of_tests
  have joins (mem : t.name.toList ∈ q.joins.flatMap fun j => j.on.qualifiers q.scope) :
      t = q.table ∨ q.isJoined t := by
    obtain ⟨j, there, inside⟩ := List.mem_flatMap.1 mem
    rcases h.joins j there _ t inside with own | refers | ⟨sql, holds, _⟩
    · exact .inl own
    · exact rooted.columns t (refers_iff.2 (.inr (.inl ⟨j, there, refers⟩)))
    -- No condition in SQL stands in a tame criterion.
    · exact absurd (complete.joins j there) holds.not_tame
  unfold qualifiers at mem
  split at mem
  · rcases List.mem_append.1 mem with mem | mem
    · rcases List.mem_append.1 mem with mem | mem
      · obtain ⟨e, there, inside⟩ := List.mem_flatMap.1 mem
        rcases h.selects e there _ t inside with own | refers
        · exact .inl own
        · exact rooted.columns t (refers_iff.2 (.inl ⟨e, there, refers⟩))
      · exact joins mem
    · exact tail mem
  · rw [plain, List.flatMap_nil, List.append_nil] at mem
    exact (List.mem_append.1 mem).elim joins tail
  · exact tail mem
  · exact tail mem

theorem mem_sources (other : q.mode ≠ .insert) :
    t ∈ q.sources ↔ t = q.table ∨ q.mode ≠ .delete ∧ q.isJoined t := by
  have joined : t ∈ q.joins.map Join.table ↔ q.isJoined t := by
    simp [isJoined]
  unfold sources
  cases mode : q.mode with
  | select | update => rw [List.mem_cons, joined, and_iff_right (by decide)]
  | insert => exact absurd mode other
  | delete => simp

theorem introducedIn_iff (complete : q.Complete) (other : q.mode ≠ .insert) :
    t.IntroducedIn q.dialect q.sql ↔ t = q.table ∨ q.mode ≠ .delete ∧ q.isJoined t := by
  rw [← mem_sources other, Table.IntroducedIn, (tables_of_sql complete other).2, List.mem_map]
  constructor
  · rintro ⟨u, mem, same⟩
    rwa [← Table.eq_of_toList same]
  · exact fun mem => ⟨t, mem, rfl⟩

theorem qualifiesIn_iff (complete : q.Complete) (other : q.mode ≠ .insert) :
    t.QualifiesIn q.dialect q.sql ↔ t.name.toList ∈ q.qualifiers := by
  rw [Table.QualifiesIn, (tables_of_sql complete other).1]

/-- A statement that does not delete introduces all tables that it shows, and one that does if what
it tests and sorts by is the queried table's. -/
theorem introduces_iff (grounded : q.Grounded) (complete : q.Complete) (rooted : q.Rooted)
    (plain : q.assignments = []) (other : q.mode ≠ .insert) :
    (∀ t : Table, t.QualifiesIn q.dialect q.sql → t.IntroducedIn q.dialect q.sql) ↔
      q.mode = .delete → ∀ t, q.Tests t → t = q.table := by
  simp only [qualifiesIn_iff complete other, introducedIn_iff complete other]
  by_cases deletes : q.mode = .delete
  -- What deletes introduces one table, and shows its conditions, groups and orders only.
  · have shown : q.qualifiers = q.tailQualifiers := by
      unfold qualifiers
      rw [deletes]
    simp only [deletes, shown, ne_eq, not_true_eq_false, false_and, or_false, forall_const]
    constructor
    · intro each t tests
      by_contra foreign
      exact foreign (each t (tests.mem_tailQualifiers foreign))
    · exact fun each t mem => (grounded.tail mem).elim id (each t)
  · simp only [deletes, false_imp_iff, iff_true, ne_eq, not_false_eq_true, true_and]
    exact fun t mem => grounded.home complete rooted plain mem

end Query

end ScopedQuery.Sql

namespace ScopedQuery

open Sql Outcome

namespace Access

variable {c : Catalog} {table : Table} {v : Viewer}

theorem material_complete (d : Dialect) : Material c table v fun criterion =>
    (∀ sql, criterion.Holds sql → isComplete d sql) → criterion.Complete d where
  owner _ := .tame (tame_equals _ trivial)
  isNull _ _ := .tame trivial
  oneOf _ _ _ := .tame (tame_oneOf _ _)
  provided sql _ held := .raw (held sql .itself)
  all _ each held := Criterion.complete_all fun criterion mem =>
    each criterion mem fun sql holds => held sql (Criterion.holds_all.2 ⟨criterion, mem, holds⟩)
  or _ _ ha hb held := Criterion.complete_or
    (ha fun sql holds => held sql (Criterion.holds_or.2 (.inl holds)))
    (hb fun sql holds => held sql (Criterion.holds_or.2 (.inr holds)))

end Access

namespace Request

variable {c : Catalog} {s : Settings} {v : Viewer} {r : Request} {m m' : Memo} {q : Query}

theorem complete_build (textual : r.Textual) (h : r.build c s v m = (.ok q, m'))
    (held : ∀ sql, q.Holds sql → isComplete q.dialect sql) :
    q.Complete ∧ q.mode = r.mode ∧ q.dialect = s.dialect := by
  obtain ⟨table, picked, asked, _, selected, arranged, confined⟩ := build_ok h
  have grown := grows_asked textual selected arranged
  -- All that was asked for is tame, so that only the rule holds conditions in SQL.
  have tame := tame_of_grows grown (Query.tame_new _ _ _)
  obtain ⟨rules, rfl, complete⟩ := (Access.material_complete asked.dialect).wheres rfl confined
  refine ⟨⟨tame.selects, tame.joins, List.forall_mem_append.2 ⟨fun criterion mem => ?_, ?_⟩,
    tame.groupBys, tame.orderBys, tame.assignments⟩, grown.mode, grown.dialect⟩
  · exact .tame ((Criterion.tameAll_iff _).1 tame.wheres criterion mem)
  · exact fun criterion mem => complete criterion mem fun sql holds =>
      held sql ⟨criterion, List.mem_append_right _ mem, holds⟩

/-- The statement built for a document introduces the queried table and, unless it deletes, every
joined one. So it introduces each table that it puts in front of a column, exactly unless it deletes
and tests or sorts by a column of a joined table. -/
theorem introduced_of_document {j : Json} (read : ofJson j = .ok r) (other : r.mode ≠ .insert)
    (h : r.build c s v m = (.ok q, m')) (rooted : q.Rooted) :
    (∀ t : Table, t.IntroducedIn s.dialect q.sql ↔
      t = q.table ∨ r.mode ≠ .delete ∧ q.isJoined t) ∧
    ((∀ t : Table, t.QualifiesIn s.dialect q.sql → t.IntroducedIn s.dialect q.sql) ↔
      r.mode = .delete → ∀ t, q.Tests t → t = q.table) := by
  have textual := textual_of_ofJson read
  obtain ⟨grounded, plain⟩ := grounded_build textual h
  obtain ⟨complete, mode, dialect⟩ := complete_build textual h rooted.complete
  rw [← mode] at other ⊢
  rw [← dialect]
  exact ⟨fun t => Query.introducedIn_iff complete other,
    Query.introduces_iff grounded complete rooted plain other⟩

/-- Tasks that are assigned to users. Whoever works on tasks, works on their own ones. -/
def assignedTasks : Catalog :=
  (((Catalog.empty.withEntity "Task" ⟨false, [.link "assigned_to" "User"], []⟩).withEntity "User"
    .blank).grant "jane" "Task" ⟨[.read, .write, .delete], [], none, none⟩).addHook "Task"
      fun user _ => some (Catalog.renderTemplate "`tabTask`.`owner`=\x7buser\x7d" user)

def assignedTo (mode : String) : Json :=
  .obj [("entity", .str "Task"), ("mode", .str mode),
    ("filters", .obj [("assigned_to.email", .str "x")])]

def assignedQuery (mode : Mode) : Query :=
  let task := Table.ofEntity "Task"
  let user := Table.ofEntity "User"
  { Query.new mode task .mariadb with
    joins := [⟨user, (user.column "name").equals (task.column "assigned_to").term⟩]
    wheres := [(user.column "email").equals (.text "x"), .raw "`tabTask`.`owner`='jane'"] }

theorem rooted_assignedQuery (mode : Mode) : (assignedQuery mode).Rooted := by
  have held {sql : String} (h : (assignedQuery mode).Holds sql) :
      sql = "`tabTask`.`owner`='jane'" := by
    obtain ⟨criterion, mem, holds⟩ := h
    rcases List.mem_pair.1 mem with rfl | rfl
    · exact absurd ⟨trivial, trivial, Term.follows_eq _⟩ holds.not_tame
    · cases holds with
      | itself => rfl
      | part mem _ => cases mem
  constructor
  · rintro t ⟨column, mentions, rfl⟩
    cases mentions with
    | selected mem _ | grouped mem _ | ordered mem _ => cases mem
    | joined mem inside =>
      obtain rfl := List.mem_singleton.1 mem
      rcases Criterion.mentions_equals.1 inside with rfl | inside
      · exact .inr rfl
      · obtain rfl := Term.mentions_column.1 inside
        exact .inl rfl
    | tested mem inside =>
      rcases List.mem_pair.1 mem with rfl | rfl
      · rcases Criterion.mentions_equals.1 inside with rfl | inside
        · exact .inr rfl
        · exact absurd inside (Term.not_mentions_literal _)
      · exact absurd inside (Criterion.not_mentions_raw _)
  · intro sql h
    rw [held h]
    rfl
  · intro sql h t qualifies
    rw [held h] at qualifies
    have named : t.name.toList = "tabTask".toList := List.mem_singleton.1 qualifies
    exact .inl (Table.eq_of_toList named)

theorem introduced_of_document_update :
    ∃ r m', ofJson (assignedTo "update") = .ok r ∧
      r.build assignedTasks .standard (.ofUser "jane") (.empty 1) =
        (.ok (assignedQuery .update), m') ∧
      (Table.ofEntity "User").QualifiesIn .mariadb (assignedQuery .update).sql ∧
      ∀ t : Table, t.QualifiesIn .mariadb (assignedQuery .update).sql →
        t.IntroducedIn .mariadb (assignedQuery .update).sql := by
  obtain ⟨r, m', read, other, built, mode⟩ : ∃ r m', ofJson (assignedTo "update") = .ok r ∧
      r.mode ≠ .insert ∧ r.build assignedTasks .standard (.ofUser "jane") (.empty 1) =
        (.ok (assignedQuery .update), m') ∧ r.mode ≠ .delete :=
    ⟨_, _, rfl, nofun, rfl, nofun⟩
  refine ⟨r, m', read, built, by unfold Table.QualifiesIn; decide +kernel, ?_⟩
  have introduced := introduced_of_document read other built (rooted_assignedQuery .update)
  exact introduced.2.2 fun deletes => absurd deletes mode

/-- A delete tests users without introducing them, although they are joined. -/
theorem not_introduced_delete :
    ∃ r m', ofJson (assignedTo "delete") = .ok r ∧ r.mode = .delete ∧
      r.build assignedTasks .standard (.ofUser "jane") (.empty 1) =
        (.ok (assignedQuery .delete), m') ∧
      (assignedQuery .delete).Rooted ∧
      (Table.ofEntity "User").QualifiesIn .mariadb (assignedQuery .delete).sql ∧
      ¬ (Table.ofEntity "User").IntroducedIn .mariadb (assignedQuery .delete).sql := by
  refine ⟨_, _, rfl, rfl, rfl, rooted_assignedQuery .delete, ?_, ?_⟩
  · unfold Table.QualifiesIn
    decide +kernel
  · unfold Table.IntroducedIn
    decide +kernel

end Request

end ScopedQuery
