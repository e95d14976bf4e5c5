import ScopedQuery.Proofs.Lexical.Query
import ScopedQuery.Proofs.Tables.Scan

set_option autoImplicit false

namespace ScopedQuery

open Sql Access

open Clause (isNameQuote isEntityChar)

/-! ### Calm texts put together -/

namespace Access

variable {a b : List Char}

def isSeam (cs : List Char) : Bool := isUnquoted cs && cs.head?.any fun c => c != 't'

theorem unquoted_of_isSeam {seam : List Char} (h : isSeam seam) : isUnquoted seam :=
  (Bool.and_eq_true_iff.1 h).1

theorem Calm.behind_seam (ha : Calm a) (seam : List Char) (h : isSeam seam) :
    Calm (a ++ seam) := by
  refine ha.append (calm_of_unquoted (unquoted_of_isSeam h)) (.inr fun head => ?_)
  unfold isSeam at h
  rw [head] at h
  simp at h

theorem Calm.joined (ha : Calm a) (seam : List Char) (h : isSeam seam) (hb : Calm b) :
    Calm (a ++ seam ++ b) := by
  refine (ha.behind_seam seam h).append hb (.inl fun c last => isUnquoted_iff.1 (unquoted_of_isSeam h) c ?_)
  have ne : seam ≠ [] := by
    rintro rfl
    cases h
  rw [List.getLast?_append_of_ne_nil a ne] at last
  exact List.mem_of_getLast? last

theorem calm_nil : Calm [] := calm_of_unquoted rfl

def isClosed (s : String) : Bool := s.toList.getLast?.any fun c => !isEntityChar c

theorem calm_of_isClosed (a : List Char) {s : String} (h : isClosed s) : Calm (a ++ s.toList) := by
  obtain ⟨c, last, stop⟩ := (Option.any_eq_true _ _).1 h
  refine calm_of_getLast? (c := c) ?_ (by simpa using stop)
  rw [List.getLast?_append, last, Option.some_or]

theorem calm_intercalate {s : String} (h : isSeam s.toList) {texts : List String}
    (each : ∀ t ∈ texts, Calm t.toList) : Calm (s.intercalate texts).toList := by
  induction texts with
  | nil => exact calm_nil
  | cons t ts ih =>
    obtain ⟨first, others⟩ := List.forall_mem_cons.1 each
    by_cases last : ts = []
    · subst last
      simpa using first
    · rw [String.intercalate_cons_of_ne_nil last, String.toList_append, String.toList_append]
      exact first.joined _ h (ih others)

theorem calm_quoteIdentifier (a : List Char) (d : Dialect) (name : String) :
    Calm (a ++ (d.quoteIdentifier name).toList) := by
  rw [Dialect.quoteIdentifier, String.toList_ofList, ← List.append_assoc]
  exact calm_of_getLast? List.getLast?_concat
    (Clause.not_isEntityChar_of_isNameQuote (isNameQuote_quoteChar d))

theorem calm_quoteString (d : Dialect) (value : String) : Calm (d.quoteString value).toList := by
  rw [Dialect.quoteString, String.toList_ofList]
  exact calm_of_getLast? List.getLast?_concat (by decide)

end Access

/-! ### Terms -/

namespace Sql

theorem unquoted_of_isNumeralChar {cs : List Char} (h : ∀ c ∈ cs, isNumeralChar c) :
    isUnquoted cs := by
  refine isUnquoted_iff.2 fun c mem => ?_
  rw [Bool.eq_false_iff]
  intro quote
  rcases Clause.isNameQuote_iff.1 quote with rfl | rfl <;> exact absurd (h _ mem) (by decide)

theorem calm_signed (negative : Bool) {cs : List Char} (h : ∀ c ∈ cs, isNumeralChar c) :
    Calm (Decimal.signText negative ++ cs) := by
  have sign : isUnquoted (Decimal.signText negative) := by cases negative <;> decide
  refine calm_of_unquoted ?_
  rw [isUnquoted, List.all_append, Bool.and_eq_true]
  exact ⟨sign, unquoted_of_isNumeralChar h⟩

theorem calm_ofNat (n : Nat) : Calm (Decimal.ofNat n).toList := by
  rw [Decimal.ofNat, String.toList_ofList]
  exact calm_of_unquoted (unquoted_of_isNumeralChar (isNumeralChar_digits n))

theorem calm_literal (d : Dialect) (v : Literal) : Calm (v.sql d).toList := by
  cases v with
  | null =>
    change Calm "NULL".toList
    exact calm_of_unquoted (by decide)
  | bool b =>
    cases b with
    | true =>
      change Calm "true".toList
      exact calm_of_unquoted (by decide)
    | false =>
      change Calm "false".toList
      exact calm_of_unquoted (by decide)
  | int n =>
    rw [Literal.sql, toList_ofInt]
    exact calm_signed _ (isNumeralChar_digits _)
  | float x =>
    obtain ⟨negative, cs, eq, _, numeral, _⟩ :=
      text_floatStyle (Decimal.Parts.ofBits x.toBits.toNat)
    rw [Literal.sql, Decimal.ofFloat, String.toList_ofList, eq]
    exact calm_signed negative numeral
  | text s => exact calm_quoteString d s

theorem calm_column (s : Scope) (c : Column) : Calm (c.sql s).toList := by
  unfold Column.sql
  split
  · rw [String.toList_append]
    exact calm_quoteIdentifier _ _ _
  · exact calm_quoteIdentifier [] _ _

theorem calm_star (s : Scope) (t : Option Table) : Calm ((Term.star t).sql s).toList := by
  have all : Calm "*".toList := calm_of_unquoted (by decide)
  cases t with
  | none => exact all
  | some t =>
    rw [Term.sql]
    split
    · rw [String.toList_append]
      exact calm_of_isClosed _ (by decide)
    · exact all

theorem calm_callSql (s : Scope) (function : String) (args : List Term) (texts : List String) :
    Calm (callSql s function args texts).toList := by
  have closed (a b : String) (h : isClosed b) : Calm (a ++ b).toList := by
    rw [String.toList_append]
    exact calm_of_isClosed _ h
  unfold callSql
  split
  · unfold extractSql
    split <;> exact closed _ _ (by decide)
  · exact closed _ _ (by decide)

theorem calm_operand (outer : Connective) (c : Criterion) {text : String} (h : Calm text.toList) :
    Calm (operandSql outer c text).toList := by
  have enclosed : Calm ("(" ++ text ++ ")").toList := by
    rw [String.toList_append]
    exact calm_of_isClosed _ (by decide)
  unfold operandSql
  split <;> try split
  all_goals first | exact h | exact enclosed

theorem isSeam_token (op : BinaryOp) : isSeam op.token.toList := by cases op <;> decide

mutual

theorem calm_term (s : Scope) : ∀ t : Term, t.Tame → Calm (t.sql s).toList
  | .column c, _ => calm_column s c
  | .star t, _ => calm_star s t
  | .literal v, _ => calm_literal _ v
  | .tuple items, _ => by
    rw [Term.sql, String.toList_append]
    exact calm_of_isClosed _ (by decide)
  | .position n, _ => calm_ofNat n
  | .call function args label, _ => calm_callSql s function args _
  | .binary left op right, tame => by
    rw [Term.sql, String.toList_append, String.toList_append]
    exact (calm_term s left tame.1).joined _ (isSeam_token op) (calm_term s right tame.2.1)
  | .datePart part, _ => by
    have plain : isUnquoted part.keyword.toList := by cases part <;> decide
    exact calm_of_unquoted plain
  | .condition c, tame => calm_criterion s c tame

theorem calm_criterion (s : Scope) : ∀ c : Criterion, c.Tame → Calm (c.sql s).toList
  | .compare left op right, tame => by
    rw [Criterion.sql, String.toList_append, String.toList_append]
    exact (calm_term s left tame.1).joined _ (isSeam_token op) (calm_term s right tame.2.1)
  | .member term values negated, _ => by
    rw [Criterion.sql, String.toList_append]
    exact calm_of_isClosed _ (by decide)
  | .isNull term negated, tame => by
    rw [Criterion.sql, String.toList_append]
    refine (calm_term s term tame).behind_seam _ ?_
    cases negated <;> decide
  | .like term pattern negated, tame => by
    rw [Criterion.sql, String.toList_append, String.toList_append]
    refine (calm_term s term tame.1).joined _ ?_ (calm_term s pattern tame.2)
    cases negated <;> decide
  | .regex term pattern, tame => by
    have seam : isSeam (" ".toList ++ s.dialect.regexOperator.toList ++ " ".toList) := by
      cases s.dialect <;> decide
    have whole := (calm_term s term tame.1).joined _ seam (calm_term s pattern tame.2)
    simpa only [Criterion.sql, String.toList_append, List.append_assoc] using whole
  | .between term low high, tame => by
    have range := (calm_term s term tame.1).joined " BETWEEN ".toList (by decide)
      (calm_term s low tame.2.1)
    have whole := range.joined " AND ".toList (by decide) (calm_term s high tame.2.2)
    simpa only [Criterion.sql, String.toList_append] using whole
  | .conj items, tame => by
    rw [Criterion.sql]
    exact calm_intercalate (by decide) (calm_operands s .conjunction items tame)
  | .disj items, tame => by
    rw [Criterion.sql]
    exact calm_intercalate (by decide) (calm_operands s .disjunction items tame)
  | .neg inner, _ => by
    rw [Criterion.sql, String.toList_append]
    exact calm_of_isClosed _ (by decide)

theorem calm_operands (s : Scope) (outer : Connective) :
    ∀ cs : List Criterion, Criterion.TameAll cs →
      ∀ x ∈ Criterion.operands s outer cs, Calm x.toList
  | [], _ => by simp [Criterion.operands]
  | c :: cs, tame => by
    rw [Criterion.operands, List.forall_mem_cons]
    exact ⟨calm_operand outer c (calm_criterion s c tame.1), calm_operands s outer cs tame.2⟩

end

theorem calm_selectItem (s : Scope) {t : Term} (tame : t.Tame) :
    Calm (selectItemSql s t).toList := by
  unfold selectItemSql
  split
  · rw [String.toList_append]
    exact calm_quoteIdentifier _ _ _
  · rw [String.toList_append]
    exact calm_quoteIdentifier _ _ _
  · exact calm_term s t tame

/-! ### Selects -/

theorem calm_joins (s : Scope) {front : List Char} {js : List Join} (calm : Calm front)
    (tame : ∀ j ∈ js, j.on.Tame) :
    Calm (front ++ (String.join (js.map fun j => " " ++ j.sql s)).toList) := by
  induction js generalizing front with
  | nil => simpa using calm
  | cons j js ih =>
    obtain ⟨first, others⟩ := List.forall_mem_cons.1 tame
    have table : Calm (front ++ " LEFT JOIN ".toList ++ (s.ident j.table.name).toList) :=
      calm_quoteIdentifier _ _ _
    have join : Calm (front ++ (" " ++ j.sql s).toList) := by
      have whole := table.joined " ON ".toList (by decide) (calm_criterion s j.on first)
      simpa [Join.sql] using whole
    rw [List.map_cons, String.join_cons, String.toList_append, ← List.append_assoc]
    exact ih join others

namespace Query

variable {q : Query}

theorem calm_selects (tame : Term.TameAll q.selects) :
    Calm ("SELECT " ++ (if q.distinct then "DISTINCT " else "") ++
      ",".intercalate (q.selects.map (selectItemSql q.scope)) ++ " FROM ").toList := by
  have head : isSeam ("SELECT " ++ if q.distinct then "DISTINCT " else "").toList := by
    cases q.distinct <;> decide
  have items : Calm (",".intercalate (q.selects.map (selectItemSql q.scope))).toList := by
    refine calm_intercalate (by decide) (List.forall_mem_map.2 fun t mem => ?_)
    exact calm_selectItem q.scope ((Term.tameAll_iff q.selects).1 tame t mem)
  have whole := ((calm_nil.joined _ head items).behind_seam " FROM ".toList (by decide))
  simpa only [String.toList_append, List.nil_append] using whole

theorem mem_mentionedEntities_sql {entity : String} (mode : q.mode = .select)
    (selects : Term.TameAll q.selects) (joins : ∀ j ∈ q.joins, j.on.Tame)
    (named : Clause.isEntityName entity.toList)
    (there : .ofEntity entity ∈ q.table :: q.joins.map Join.table) :
    entity ∈ mentionedEntities q.sql := by
  have calm := calm_selects selects
  have text : q.sql = "SELECT " ++ (if q.distinct then "DISTINCT " else "") ++
      ",".intercalate (q.selects.map (selectItemSql q.scope)) ++ " FROM " ++
      q.scope.ident q.table.name ++ q.joinsSql ++ q.tailSql := by
    unfold sql
    rw [mode]
    rfl
  generalize "SELECT " ++ (if q.distinct then "DISTINCT " else "") ++
    ",".intercalate (q.selects.map (selectItemSql q.scope)) ++ " FROM " = head at calm text
  -- In front of a joined table stands a join before it or the queried table, which ends with a mark.
  rcases List.mem_cons.1 there with own | joined
  · refine mem_mentionedEntities (d := q.dialect) (q.joinsSql ++ q.tailSql).toList named calm ?_
    rw [text, own]
    simp only [String.toList_append, List.append_assoc]
    rfl
  · obtain ⟨j, mem, table⟩ := List.mem_map.1 joined
    obtain ⟨before, after, split⟩ := List.append_of_mem mem
    rw [split] at joins
    have ahead := calm_joins q.scope (calm_quoteIdentifier head.toList q.dialect q.table.name)
      (fun i mem => joins i (List.mem_append_left _ mem))
    refine mem_mentionedEntities (d := q.dialect)
      (" ON " ++ j.on.sql q.scope ++
        String.join (after.map fun j => " " ++ j.sql q.scope) ++ q.tailSql).toList
      named (ahead.behind_seam " LEFT JOIN ".toList (by decide)) ?_
    rw [text, ← table, joinsSql, split]
    simp [Join.sql, Scope.ident, scope]

end Query

end Sql

end ScopedQuery
