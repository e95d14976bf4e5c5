import ScopedQuery.Proofs.Lexical.Expression

set_option autoImplicit false

namespace ScopedQuery.Sql

/-- Whether every expression of a query is tame. -/
structure Query.Tame (q : Query) : Prop where
  selects : Term.TameAll q.selects
  joins : ∀ j ∈ q.joins, j.on.Tame
  wheres : Criterion.TameAll q.wheres
  groupBys : Term.TameAll q.groupBys
  orderBys : ∀ o ∈ q.orderBys, o.term.Tame
  assignments : ∀ a ∈ q.assignments, a.2.Tame
  rows : ∀ row ∈ q.rows, Term.TameAll row

theorem Query.tame_new (mode : Mode) (table : Table) (d : Dialect) :
    (Query.new mode table d).Tame :=
  ⟨trivial, by simp [Query.new], trivial, trivial, by simp [Query.new], by simp [Query.new],
    by simp [Query.new]⟩

variable {d : Dialect}

theorem piece_selectItem (s : Scope) {t : Term} (tame : t.Tame) :
    Piece s.dialect (selectItemSql s t).toList := by
  have text := piece_term s t tame
  have labelled : ∀ label, Piece s.dialect (t.sql s ++ " " ++ s.ident label).toList := by
    intro label
    rw [String.toList_append, String.toList_append]
    exact piece_infixed text (piece_quoteIdentifier _ _) (by decide)
  unfold selectItemSql
  split
  · exact labelled _
  · exact labelled _
  · exact text

theorem piece_join (s : Scope) {j : Join} (tame : j.on.Tame) :
    Piece s.dialect (j.sql s).toList := by
  have head : Piece s.dialect ("LEFT JOIN ".toList ++ (s.ident j.table.name).toList) :=
    ((piece_quoteIdentifier _ _).after_joint (by decide)).piece
  have whole := piece_infixed head (piece_criterion s j.on tame) (b := " ON ".toList) (by decide)
  simpa only [Join.sql, String.toList_append] using whole

theorem piece_ordering (s : Scope) {o : Ordering} (tame : o.term.Tame) :
    Piece s.dialect (o.sql s).toList := by
  rw [Ordering.sql, String.toList_append]
  refine piece_suffixed (piece_term s o.term tame) ?_
  cases o.direction <;> decide

theorem tail_clause {k s : String} {texts : List String} (empty : Bool)
    (front : isJoint k.toList) (joint : isJoint s.toList)
    (h : ∀ t ∈ texts, Piece d t.toList) :
    Tail d (if empty then "" else k ++ s.intercalate texts).toList := by
  cases empty with
  | true => exact Tail.nil
  | false =>
    have items := piece_intercalate joint h
    simpa only [Bool.false_eq_true, ↓reduceIte, String.toList_append] using items.after_joint front

namespace Query

variable {q : Query}

theorem tail_joins (tame : q.Tame) : Tail q.dialect q.joinsSql.toList := by
  have each : ∀ js : List Join, (∀ j ∈ js, j.on.Tame) →
      Tail q.dialect (String.join (js.map fun j => " " ++ j.sql q.scope)).toList := by
    intro js
    induction js with
    | nil => exact fun _ => Tail.nil
    | cons j js ih =>
      intro h
      have first : Piece q.dialect (j.sql q.scope).toList :=
        piece_join q.scope (h j List.mem_cons_self)
      have rest := ih fun i hi => h i (List.mem_cons_of_mem _ hi)
      rw [List.map_cons, String.join_cons, String.toList_append, String.toList_append]
      exact (first.after_joint (by decide)).append rest
  exact each q.joins tame.joins

theorem tail_where (tame : q.Tame) : Tail q.dialect q.whereSql.toList :=
  tail_clause _ (by decide) (by decide) (piece_operands q.scope .conjunction q.wheres tame.wheres)

theorem tail_groupBy (tame : q.Tame) : Tail q.dialect q.groupBySql.toList :=
  tail_clause _ (by decide) (by decide) (piece_terms q.scope q.groupBys tame.groupBys)

theorem tail_orderBy (tame : q.Tame) : Tail q.dialect q.orderBySql.toList := by
  refine tail_clause _ (by decide) (by decide) (List.forall_mem_map.2 ?_)
  exact fun o ho => piece_ordering q.scope (tame.orderBys o ho)

theorem tail_limit (q : Query) : Tail q.dialect q.limitSql.toList := by
  unfold limitSql
  split
  · rw [String.toList_append]
    exact (piece_ofNat _).after_joint (by decide)
  · exact Tail.nil

theorem tail_offset (q : Query) : Tail q.dialect q.offsetSql.toList := by
  unfold offsetSql
  split
  · rw [String.toList_append]
    exact (piece_ofNat _).after_joint (by decide)
  · exact Tail.nil

theorem tail_lock (q : Query) : Tail q.dialect q.lockSql.toList := by
  unfold lockSql
  split
  · split_ifs
    · exact Tail.nil
    · exact tail_joint (by decide)
    · exact tail_joint (by decide)
    · exact tail_joint (by decide)
  · exact Tail.nil

theorem tail_tail (tame : q.Tame) : Tail q.dialect q.tailSql.toList := by
  have clauses := (((((tail_where tame).append (tail_groupBy tame)).append
    (tail_orderBy tame)).append (tail_limit q)).append (tail_offset q)).append (tail_lock q)
  simpa only [tailSql, String.toList_append] using clauses

theorem piece_select (tame : q.Tame) : Piece q.dialect q.selectSql.toList := by
  have head : isJoint ("SELECT " ++ if q.distinct then "DISTINCT " else "").toList := by
    cases q.distinct <;> decide
  have items :
      Piece q.dialect (",".intercalate (q.selects.map (selectItemSql q.scope))).toList := by
    refine piece_intercalate (by decide) (List.forall_mem_map.2 fun t ht => ?_)
    exact piece_selectItem q.scope ((Term.tameAll_iff q.selects).1 tame.selects t ht)
  have table := piece_infixed (items.after_joint head).piece
    (piece_quoteIdentifier q.dialect q.table.name) (b := " FROM ".toList) (by decide)
  rw [selectSql]
  simp only [String.toList_append] at table ⊢
  exact table.append (tail_joins tame)

theorem piece_update (tame : q.Tame) : Piece q.dialect q.updateSql.toList := by
  have table : Piece q.dialect ("UPDATE ".toList ++ (q.scope.ident q.table.name).toList) :=
    ((piece_quoteIdentifier _ _).after_joint (by decide)).piece
  have assigned : ∀ a ∈ q.assignments,
      Piece q.dialect (a.1.sql q.scope ++ "=" ++ a.2.sql q.scope).toList := by
    intro a ha
    rw [String.toList_append, String.toList_append]
    exact piece_infixed (piece_column q.scope a.1)
      (piece_term q.scope a.2 (tame.assignments a ha)) (by decide)
  have sets := tail_clause (k := " SET ") (s := ",") q.assignments.isEmpty (by decide) (by decide)
    (List.forall_mem_map.2 assigned)
  rw [updateSql, String.toList_append, String.toList_append, String.toList_append]
  exact (table.append (tail_joins tame)).append sets

theorem piece_insert (tame : q.Tame) : Piece q.dialect q.insertSql.toList := by
  have table : Piece q.dialect ("INSERT INTO ".toList ++ (q.scope.ident q.table.name).toList) :=
    ((piece_quoteIdentifier _ _).after_joint (by decide)).piece
  have targets : Tail q.dialect (if q.targets.isEmpty then "" else
      " (" ++ ",".intercalate (q.targets.map fun c => q.scope.ident c.name) ++ ")").toList := by
    split
    · exact Tail.nil
    · have names : Piece q.dialect
          (",".intercalate (q.targets.map fun c => q.scope.ident c.name)).toList := by
        refine piece_intercalate (by decide) (List.forall_mem_map.2 fun c _ => ?_)
        exact piece_quoteIdentifier q.dialect c.name
      have front : Reads q.dialect (Reader.Resting q.dialect) " (".toList Reader.Ready :=
        reads_joint (by decide)
      rw [String.toList_append, String.toList_append]
      exact names.between front (by decide)
  have inserted : ∀ row ∈ q.rows,
      Piece q.dialect ("(" ++ ",".intercalate (Term.sqlOfList q.scope row) ++ ")").toList := by
    intro row hrow
    have values : Piece q.dialect (",".intercalate (Term.sqlOfList q.scope row)).toList :=
      piece_intercalate (by decide) (piece_terms q.scope row (tame.rows row hrow))
    rw [String.toList_append, String.toList_append]
    exact values.enclosed.piece
  have rows := tail_clause (k := " VALUES ") (s := ",") q.rows.isEmpty (by decide) (by decide)
    (List.forall_mem_map.2 inserted)
  rw [insertSql, String.toList_append, String.toList_append, String.toList_append]
  exact (table.append targets).append rows

theorem inert_sql (tame : q.Tame) : Inert q.dialect q.sql := by
  have remove : Piece q.dialect ("DELETE FROM ".toList ++ (q.scope.ident q.table.name).toList) :=
    ((piece_quoteIdentifier _ _).after_joint (by decide)).piece
  refine inert_of_piece ?_
  unfold sql
  cases q.mode with
  | select =>
    rw [String.toList_append]
    exact (piece_select tame).append (tail_tail tame)
  | update =>
    rw [String.toList_append]
    exact (piece_update tame).append (tail_tail tame)
  | insert => exact piece_insert tame
  | delete => simpa only [String.toList_append] using remove.append (tail_tail tame)

end Query

end ScopedQuery.Sql
