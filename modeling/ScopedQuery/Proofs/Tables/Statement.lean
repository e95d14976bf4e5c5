import ScopedQuery.Proofs.Tables.Qualified
import ScopedQuery.Sql.Statement

set_option autoImplicit false

namespace ScopedQuery.Sql

variable {d : Dialect} {a b cs : List Char} {m n ts us : List (List Char)}

/-! ### Conditions in SQL -/

/-- Whether a condition in SQL ends its quotations and its parentheses. Neither does it go on from a
point in front of it. -/
def isComplete (d : Dialect) (sql : String) : Bool :=
  (d.lexemes sql.toList).all d.closes && (d.lexemes sql.toList).head? != some (.sign '.') &&
    Lexeme.depth? 1 (d.lexemes sql.toList) == some 1

inductive Criterion.Complete (d : Dialect) : Criterion → Prop
  | tame {c : Criterion} (tame : c.Tame) : Complete d c
  | raw {sql : String} (complete : isComplete d sql) : Complete d (.raw sql)
  | conj {items : List Criterion} (each : ∀ c ∈ items, Complete d c) : Complete d (.conj items)
  | disj {items : List Criterion} (each : ∀ c ∈ items, Complete d c) : Complete d (.disj items)

theorem span_raw {sql : String} (complete : isComplete d sql) :
    Span d 0 0 ("(" ++ sql ++ ")").toList (Lexeme.qualifiers (d.lexemes sql.toList)) [] := by
  unfold isComplete at complete
  simp only [Bool.and_eq_true, bne_iff_ne, beq_iff_eq] at complete
  obtain ⟨⟨closed, head⟩, depth⟩ := complete
  have inside : Span d 1 1 sql.toList (Lexeme.qualifiers (d.lexemes sql.toList)) [] := by
    refine ⟨closed, head, rfl, fun k more => ?_⟩
    rw [Lexeme.sources_append depth, ite_self, List.nil_append]
  have opened := inside.behind_code (i := 0) (x := "(".toList) (by decide) (by decide)
  rw [String.toList_append, String.toList_append]
  exact opened.then_code (by decide) (by decide)

theorem span_of_complete (s : Scope) (outer : Connective) {c : Criterion}
    (complete : c.Complete s.dialect) :
    Span s.dialect 0 0 (operandSql outer c (c.sql s)).toList (c.qualifiers s) [] := by
  induction complete generalizing outer with
  | tame tame => exact span_operand outer _ (span_criterion s _ tame)
  | raw complete => exact span_raw complete
  | conj _ ih => exact span_operand outer _ (span_operands s fun c mem => ih c mem .conjunction)
  | disj _ ih => exact span_operand outer _ (span_operands s fun c mem => ih c mem .disjunction)

/-! ### Parts of statements -/

def isLead (word : String) : Bool :=
  (Lexeme.word word.toList).introduces && Dialect.every fun d =>
    d.lexemes (word.toList ++ [' ']) == [.word word.toList]

theorem span_introduced (name : String) {w : String} (lead : isLead w) :
    Span d 0 0 (w.toList ++ [' '] ++ (d.quoteIdentifier name).toList) [] [name.toList] := by
  unfold isLead at lead
  obtain ⟨introduces, every⟩ := Bool.and_eq_true_iff.1 lead
  have read := beq_iff_eq.1 (Dialect.of_every every d)
  have quiet : (Lexeme.name name.toList).introduces = false := rfl
  have closed : d.Closed (w.toList ++ [' ']) := by
    rw [Dialect.Closed, read]
    rfl
  have apart : d.Apart (w.toList ++ [' ']) (d.quoteIdentifier name).toList :=
    Dialect.apart_of_getLast? (isBreak_getLast?_append rfl)
  have lexemes := closed.lexemes_append apart
  rw [read, d.lexemes_quoteIdentifier, List.singleton_append] at lexemes
  refine ⟨closed.append (span_quoteIdentifier d name).closed apart, ?_, ?_, fun l more => ?_⟩
  · rw [lexemes]
    simp
  · rw [lexemes]
    rfl
  · rw [lexemes]
    simp [Lexeme.sources, Lexeme.after, introduces, quiet, Lexeme.quoted?]

structure Behind (d : Dialect) (cs : List Char) (names tables : List (List Char)) : Prop where
  span : Span d 0 0 cs names tables
  first : cs.head?.all isBreak

theorem Span.then_behind (ha : Span d 0 0 a m ts) (hb : Behind d b n us) :
    Span d 0 0 (a ++ b) (m ++ n) (ts ++ us) :=
  ha.append hb.span (Dialect.apart_of_head hb.first)

theorem Behind.append (ha : Behind d a m ts) (hb : Behind d b n us) :
    Behind d (a ++ b) (m ++ n) (ts ++ us) := by
  refine ⟨ha.span.then_behind hb, ?_⟩
  cases a with
  | nil => exact hb.first
  | cons c a => exact ha.first

theorem Behind.nil : Behind d [] [] [] := ⟨.nil, rfl⟩

theorem Span.behind (h : Span d 0 0 a m ts) {x : String} (between : isBetween x) :
    Behind d (x.toList ++ a) m ts := by
  obtain ⟨span, first, last⟩ := isBetween_iff.1 between
  refine ⟨h.behind_code span last, ?_⟩
  have ne : x.toList ≠ [] := by
    intro empty
    rw [empty] at last
    cases last
  rwa [List.head?_append_of_ne_nil _ ne]

theorem behind_clause {α : Type} {k s : String} {xs : List α} {f : α → String}
    {g : α → List (List Char)} (front : isBetween k) (between : isBetween s)
    (each : ∀ x ∈ xs, Span d 0 0 (f x).toList (g x) []) :
    Behind d (if xs.isEmpty then "" else k ++ s.intercalate (xs.map f)).toList (xs.flatMap g)
      [] := by
  cases xs with
  | nil => exact .nil
  | cons x xs =>
    rw [List.isEmpty_cons, if_neg Bool.false_ne_true, String.toList_append]
    exact (span_intercalate between each).behind front

theorem span_selectItem (s : Scope) {t : Term} (tame : t.Tame) :
    Span s.dialect 0 0 (selectItemSql s t).toList (t.qualifiers s) [] := by
  have text := span_term s t tame
  have labelled (label : String) :
      Span s.dialect 0 0 (t.sql s ++ " " ++ s.ident label).toList (t.qualifiers s) [] := by
    have whole := span_infixed (x := " ") text (span_quoteIdentifier s.dialect label)
      (by decide)
    rwa [List.append_nil] at whole
  unfold selectItemSql
  split
  · exact labelled _
  · exact labelled _
  · exact text

theorem behind_joins (s : Scope) {js : List Join} (tame : ∀ j ∈ js, j.on.Tame) :
    Behind s.dialect (String.join (js.map fun j => " " ++ j.sql s)).toList
      (js.flatMap fun j => j.on.qualifiers s) (js.map fun j => j.table.name.toList) := by
  induction js with
  | nil => exact .nil
  | cons j js ih =>
    obtain ⟨first, others⟩ := List.forall_mem_cons.1 tame
    -- Of the two words in front of the table only the second one introduces it.
    have table := (span_introduced (d := s.dialect) j.table.name (w := "JOIN") (by decide)).behind
      (x := " LEFT ") (by decide)
    have whole := (table.append ((span_criterion s j.on first).behind (x := " ON ")
      (by decide))).append (ih others)
    have left : (" " ++ j.sql s).toList = " LEFT ".toList ++ ("JOIN".toList ++ [' '] ++
        (s.ident j.table.name).toList) ++ (" ON ".toList ++ (j.on.sql s).toList) := by
      simp [Join.sql]
    rw [List.map_cons, String.join_cons, String.toList_append, left]
    exact whole

/-! ### Statements -/

structure Query.Complete (q : Query) : Prop where
  selects : Term.TameAll q.selects
  joins : ∀ j ∈ q.joins, j.on.Tame
  wheres : ∀ c ∈ q.wheres, c.Complete q.dialect
  groupBys : Term.TameAll q.groupBys
  orderBys : ∀ o ∈ q.orderBys, o.term.Tame
  assignments : ∀ a ∈ q.assignments, a.2.Tame

namespace Query

variable {q : Query}

def tailQualifiers (q : Query) : List (List Char) :=
  q.wheres.flatMap (Criterion.qualifiers q.scope) ++ q.groupBys.flatMap (Term.qualifiers q.scope) ++
    q.orderBys.flatMap fun o => o.term.qualifiers q.scope

def qualifiers (q : Query) : List (List Char) :=
  match q.mode with
  | .select => q.selects.flatMap (Term.qualifiers q.scope) ++
      (q.joins.flatMap fun j => j.on.qualifiers q.scope) ++ q.tailQualifiers
  | .update => (q.joins.flatMap fun j => j.on.qualifiers q.scope) ++
      (q.assignments.flatMap fun a => q.scope.qualifiers a.1.table ++ a.2.qualifiers q.scope) ++
      q.tailQualifiers
  | .insert | .delete => q.tailQualifiers

def sources (q : Query) : List Table :=
  match q.mode with
  | .select | .update => q.table :: q.joins.map Join.table
  | .insert | .delete => [q.table]

theorem behind_where (complete : q.Complete) : Behind q.dialect q.whereSql.toList
    (q.wheres.flatMap (Criterion.qualifiers q.scope)) [] := by
  rw [whereSql, Criterion.operands_eq_map]
  refine behind_clause (by decide) (by decide) ?_
  exact fun c mem => span_of_complete q.scope .conjunction (complete.wheres c mem)

theorem behind_groupBy (complete : q.Complete) : Behind q.dialect q.groupBySql.toList
    (q.groupBys.flatMap (Term.qualifiers q.scope)) [] := by
  rw [groupBySql, Term.sqlOfList_eq_map]
  exact behind_clause (by decide) (by decide) (span_terms q.scope q.groupBys complete.groupBys)

theorem behind_orderBy (complete : q.Complete) : Behind q.dialect q.orderBySql.toList
    (q.orderBys.flatMap fun o => o.term.qualifiers q.scope) [] := by
  refine behind_clause (by decide) (by decide) ?_
  intro o mem
  have term := span_term q.scope o.term (complete.orderBys o mem)
  rw [Ordering.sql, String.toList_append]
  cases o.direction with
  | asc => exact term.then_code (by decide) (by decide)
  | desc => exact term.then_code (by decide) (by decide)

theorem behind_count {k : String} (n : Option Nat) (front : isBetween k) :
    Behind d (match n with | some n => k ++ Decimal.ofNat n | none => "").toList [] [] := by
  cases n with
  | none => exact .nil
  | some n =>
    dsimp only
    rw [String.toList_append, Decimal.ofNat, String.toList_ofList]
    exact (span_digits n).behind front

theorem behind_tail (complete : q.Complete) : Behind q.dialect
    (q.whereSql ++ q.groupBySql ++ q.orderBySql ++ q.limitSql ++ q.offsetSql).toList
    q.tailQualifiers [] := by
  have limit : Behind q.dialect q.limitSql.toList [] [] :=
    behind_count q.limit (by decide)
  have offset : Behind q.dialect q.offsetSql.toList [] [] :=
    behind_count q.offset (by decide)
  have whole := ((((behind_where complete).append (behind_groupBy complete)).append
    (behind_orderBy complete)).append limit).append offset
  simpa only [String.toList_append, List.append_nil, tailQualifiers] using whole

def isEnd (cs : List Char) : Bool :=
  cs.head?.all isBreak && Dialect.every fun d =>
    (d.lexemes cs).head? != some (.sign '.') && Lexeme.qualifiers (d.lexemes cs) == [] &&
      Lexeme.sources 0 (d.lexemes cs) == []

theorem isEnd_lockSql (q : Query) : isEnd q.lockSql.toList := by
  unfold lockSql
  split
  · split_ifs <;> decide
  · decide

theorem tables_of_span (h : Span d 0 0 a n ts) (ends : isEnd b) :
    Lexeme.qualifiers (d.lexemes (a ++ b)) = n ∧ Lexeme.sources 0 (d.lexemes (a ++ b)) = ts := by
  unfold isEnd at ends
  obtain ⟨first, every⟩ := Bool.and_eq_true_iff.1 ends
  have last := Dialect.of_every every d
  simp only [Bool.and_eq_true, bne_iff_ne, beq_iff_eq] at last
  obtain ⟨⟨head, names⟩, tables⟩ := last
  have sources := h.sources 0 (d.lexemes b)
  rw [if_pos rfl, Nat.add_zero, tables, List.append_nil] at sources
  rw [h.closed.lexemes_append (Dialect.apart_of_head first), Lexeme.qualifiers_append head,
    h.qualifiers, names, List.append_nil]
  exact ⟨rfl, sources⟩

theorem scope_dialect (q : Query) : q.scope.dialect = q.dialect := rfl

theorem span_select (complete : q.Complete) : Span q.dialect 0 0 q.selectSql.toList
    (q.selects.flatMap (Term.qualifiers q.scope) ++
      q.joins.flatMap fun j => j.on.qualifiers q.scope)
    (q.table.name.toList :: q.joins.map fun j => j.table.name.toList) := by
  have head : isSpan 0 0 ("SELECT " ++ if q.distinct then "DISTINCT " else "").toList ∧
      ("SELECT " ++ if q.distinct then "DISTINCT " else "").toList.getLast?.any isBreak := by
    cases q.distinct <;> decide
  have items := span_intercalate (d := q.dialect) (s := ",") (by decide)
    fun t mem => span_selectItem q.scope ((Term.tameAll_iff _).1 complete.selects t mem)
  have table := (span_introduced (d := q.dialect) q.table.name (w := "FROM") (by decide)).behind
    (x := " ") (by decide)
  have whole := ((items.behind_code head.1 head.2).then_behind table).then_behind
    (behind_joins q.scope complete.joins)
  have text : " FROM ".toList = " ".toList ++ ("FROM".toList ++ [' ']) := by decide
  simpa only [selectSql, joinsSql, Scope.ident, scope_dialect, String.toList_append,
    List.append_assoc, text, List.append_nil, List.nil_append, List.singleton_append] using whole

theorem span_update (complete : q.Complete) : Span q.dialect 0 0 q.updateSql.toList
    ((q.joins.flatMap fun j => j.on.qualifiers q.scope) ++
      q.assignments.flatMap fun a => q.scope.qualifiers a.1.table ++ a.2.qualifiers q.scope)
    (q.table.name.toList :: q.joins.map fun j => j.table.name.toList) := by
  have table := span_introduced (d := q.dialect) q.table.name (w := "UPDATE") (by decide)
  have assigned : ∀ a ∈ q.assignments,
      Span q.dialect 0 0 (a.1.sql q.scope ++ "=" ++ a.2.sql q.scope).toList
        (q.scope.qualifiers a.1.table ++ a.2.qualifiers q.scope) [] :=
    fun a mem => span_infixed (span_column q.scope a.1)
      (span_term q.scope a.2 (complete.assignments a mem)) (by decide)
  have sets := behind_clause (k := " SET ") (s := ",") (by decide) (by decide) assigned
  have whole := (table.then_behind (behind_joins q.scope complete.joins)).then_behind sets
  have text : "UPDATE ".toList = "UPDATE".toList ++ [' '] := by decide
  simpa only [updateSql, joinsSql, Scope.ident, scope_dialect, String.toList_append,
    List.append_assoc, text, List.append_nil, List.nil_append, List.singleton_append] using whole

theorem span_delete (q : Query) : Span q.dialect 0 0
    ("DELETE FROM " ++ q.scope.ident q.table.name).toList [] [q.table.name.toList] := by
  have table := span_introduced (d := q.dialect) q.table.name (w := "FROM") (by decide)
  have whole := table.behind_code (i := 0) (x := "DELETE ".toList) (by decide) (by decide)
  have text : "DELETE FROM ".toList = "DELETE ".toList ++ ("FROM".toList ++ [' ']) := by decide
  simpa only [Scope.ident, scope_dialect, String.toList_append, List.append_assoc, text] using whole

/-- The names in front of points in the text of a query, and the tables that the text introduces. -/
theorem tables_of_sql (complete : q.Complete) (other : q.mode ≠ .insert) :
    Lexeme.qualifiers (q.dialect.lexemes q.sql.toList) = q.qualifiers ∧
      Lexeme.sources 0 (q.dialect.lexemes q.sql.toList) = q.sources.map fun t => t.name.toList := by
  -- The three heads have the same tail behind them.
  have tail (head : String) {ns ts : List (List Char)} (h : Span q.dialect 0 0 head.toList ns ts) :
      Lexeme.qualifiers (q.dialect.lexemes (head ++ q.tailSql).toList) = ns ++ q.tailQualifiers ∧
        Lexeme.sources 0 (q.dialect.lexemes (head ++ q.tailSql).toList) = ts := by
    have tables := tables_of_span (h.then_behind (behind_tail complete)) (isEnd_lockSql q)
    rw [List.append_nil] at tables
    simpa only [tailSql, String.toList_append, List.append_assoc] using tables
  unfold sql qualifiers sources
  cases mode : q.mode with
  | select => simpa [Function.comp_def] using tail _ (span_select complete)
  | update => simpa [Function.comp_def] using tail _ (span_update complete)
  | insert => exact absurd mode other
  | delete => simpa [Function.comp_def] using tail _ (span_delete q)

end Query

end ScopedQuery.Sql
