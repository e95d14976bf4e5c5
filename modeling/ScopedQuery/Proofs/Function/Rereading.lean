import ScopedQuery.Proofs.Function.Shape

set_option autoImplicit false

namespace ScopedQuery.Function

open Sql Text

/-! ### How a text is read -/

section Argument

variable {own : Table} {d : Dialect} {text cs : List Char}

/-- What an argument that is neither empty nor everything denotes: a literal, a call, an expression
or a column, the first of them that it can be. -/
theorem argument_eq (trimmed : trim text = cs) (ne : cs ≠ []) (star : cs ≠ ['*']) :
    argument own d text =
      (literal? cs).elim
        ((nestedCall? cs).elim
          ((splitAtOperator? cs).elim (column? own cs) fun o =>
            match BinaryOp.ofToken? (String.ofList o.token), argument own d o.left,
              argument own d o.right with
            | some op, some left, some right => some (.binary left op right)
            | _, _, _ => column? own cs)
          fun c => (callOf own d c.name c.args).map FunctionCall.term)
        fun v => some (.literal v) := by
  rw [argument, trimmed]
  split
  · next empty => exact absurd (List.isEmpty_iff.1 empty) ne
  split
  · next same => exact absurd (beq_iff_eq.1 same) star
  split
  · next read =>
    rw [read]
    rfl
  next read =>
  split
  · next call =>
    dsimp only
    rw [read, call]
    rfl
  next call =>
  split
  · next operator =>
    dsimp only
    rw [read, call, operator]
    rfl
  · next operator =>
    rw [read, call, operator]
    rfl

end Argument

/-- Whether a text has the shape of a term and reads as it. -/
structure Reads (own : Table) (t : Term) (cs : List Char) : Prop where
  shaped : Shaped t.rank cs
  read : argument own .mariadb cs = some t

section Reads

variable {own : Table} {left right t : Term} {op : BinaryOp} {a b cs : List Char}

theorem reads_star : Reads own (.star none) ['*'] where
  shaped := shaped_star
  read := by
    rw [argument]
    rfl

theorem reads_literal {v : Literal} (shaped : Shaped 0 cs) (read : literal? cs = some v) :
    Reads own (.literal v) cs where
  shaped := shaped
  read := by
    have star : cs ≠ ['*'] := by
      rintro rfl
      cases read
    rw [argument_eq shaped.solid.trim_eq shaped.ne_nil star, read]
    rfl

theorem Reads.binary (hl : Reads own left a) (hr : Reads own right b)
    (tighter : left.rank ≤ op.rank) (first : op.rank = 3 → left.rank ≠ 3)
    (last : op.rank ≠ 3 → right.rank < op.rank)
    (apart : op.rank ≠ 3 → ∀ j, op.rank ≤ j → ∀ c ∈ b.head?, begins (operators j) c = false) :
    Reads own (.binary left op right) (a ++ (op.token.toList ++ b)) := by
  have shaped := hl.shaped.joint (j := .tight op) hr.shaped tighter last apart
  have cut := splitAtOperator?_joint (j := .tight op) hl.shaped hr.shaped tighter first last apart
  rw [Joint.chars_tight] at shaped cut
  have sides : splitAtOperator? (a ++ (op.token.toList ++ b)) = some ⟨a, op.token.toList, b⟩ :=
    cut.trans (by rw [Joint.tight, List.append_nil, List.nil_append])
  have token : BinaryOp.ofToken? (String.ofList op.token.toList) = some op :=
    (Joint.tight op).spells
  have star : a ++ (op.token.toList ++ b) ≠ ['*'] := by
    intro same
    rw [same] at cut
    cases cut
  obtain ⟨other, noCall⟩ := shaped.none_of_splitAtOperator? cut
  refine ⟨shaped, ?_⟩
  rw [argument_eq shaped.solid.trim_eq shaped.ne_nil star, other, noCall, sides]
  dsimp only [Option.elim_none, Option.elim_some]
  rw [token, hl.read, hr.read]

theorem argument_of_quotedName {r : List Char} (shaped : Shaped 0 (backtick :: r)) :
    argument own .mariadb (backtick :: r) = column? own (backtick :: r) := by
  have trimmed := shaped.solid.trim_eq
  have other : literal? (backtick :: r) = none := rfl
  have noCall : nestedCall? (backtick :: r) = none := by
    refine Option.eq_none_iff_forall_ne_some.2 fun call read => ?_
    obtain ⟨inside, rest, whole, ⟨ne, word⟩, _⟩ :=
      CallText.parse?_eq_some.1 (nestedCall?_eq_some.1 read).1
    obtain ⟨x, name, eq⟩ := List.exists_cons_of_ne_nil ne
    rw [trimmed, eq] at whole
    obtain ⟨rfl, _⟩ := List.cons.inj whole
    exact absurd (word _ (eq ▸ List.mem_cons_self)) (by decide)
  have noOperator : splitAtOperator? (backtick :: r) = none := by
    rw [splitAtOperator?_eq, List.findSome?_eq_none_iff]
    intro k mem
    refine shaped.cutAt?_eq_none ?_
    simp only [List.mem_cons, List.not_mem_nil, or_false] at mem
    omega
  rw [argument_eq trimmed shaped.ne_nil (by simp [backtick]), other, noCall, noOperator]
  rfl

theorem toList_ident (name : String) :
    ((scope own).ident name).toList = backtick :: (doubling backtick name.toList ++ [backtick]) :=
  String.toList_ofList

theorem doubling_name {name : List Char} (plain : ∀ c ∈ name, Clause.isEntityChar c) :
    doubling backtick name = name := by
  refine doubling_eq_self ?_
  rintro c mem rfl
  exact absurd (plain _ mem) (by decide)

theorem reads_column {table : Table} {name : String} (word : Clause.IsWord name.toList)
    (known : table = own ∨ (Table.afterPrefix? table.name).isSome ∧
      ∀ c ∈ table.name.toList, Clause.isEntityChar c) :
    Reads own (.column (table.column name))
      ((table.column name).sql (scope own)).toList := by
  have quote : isQuote backtick := by decide
  have plain := doubling_name fun c mem => Clause.isEntityChar_of_isWordChar (word.2 c mem)
  have column : Clause.Spells isWordChar name.toList (backtick :: (name.toList ++ [backtick])) :=
    .quoted (by decide) word.1 word.2
  by_cases same : table = own
  · subst same
    have text : ((table.column name).sql (scope table)).toList =
        backtick :: (doubling backtick name.toList ++ [backtick]) := by
      rw [Column.sql, if_neg (by simp [Table.column]), toList_ident]
      rfl
    have shaped := shaped_quoted quote name.toList
    refine text ▸ ⟨shaped, ?_⟩
    have parsed := Clause.ColumnText.parse?_eq_some.2 (.bare column)
    rw [argument_of_quotedName shaped, column?, plain, parsed, String.ofList_toList]
    rfl
  · obtain ⟨physical, within⟩ := known.resolve_left same
    have plain' := doubling_name within
    have ne : table.name.toList ≠ [] := by
      intro empty
      rw [Table.afterPrefix?, empty] at physical
      cases physical
    have text : ((table.column name).sql (scope own)).toList =
        backtick :: (doubling backtick table.name.toList ++ [backtick]) ++
          (['.'] ++ backtick :: (doubling backtick name.toList ++ [backtick])) := by
      rw [Column.sql, if_pos (by simpa [Table.column] using same), String.toList_append,
        String.toList_append, toList_ident, toList_ident, List.append_assoc]
      rfl
    have shaped := shaped_qualified quote table.name.toList name.toList
    refine text ▸ ⟨shaped, ?_⟩
    have front : Clause.Spells Clause.isEntityChar table.name.toList
        (backtick :: (table.name.toList ++ [backtick])) := .quoted (by decide) ne within
    have parsed := Clause.ColumnText.parse?_eq_some.2 (.qualified front column)
    rw [plain, plain', List.cons_append] at shaped ⊢
    have resolved : Clause.ColumnText.resolve? own ⟨some table.name, name⟩ =
        some (table.column name) := by
      simp [Clause.ColumnText.resolve?, Clause.ColumnText.physicalTable?, physical]
    rw [argument_of_quotedName shaped, column?, ← List.cons_append, List.singleton_append, parsed,
      String.ofList_toList, String.ofList_toList, Option.bind_some, resolved]
    rfl

end Reads

/-! ### Calls -/

section Calls

variable {own : Table} {name inside : List Char} {texts : List (List Char)}

theorem parse?_call (word : Clause.IsWord name) (balanced : Balanced inside) :
    CallText.parse? (name ++ ('(' :: (inside ++ [')']))) =
      some ⟨name, CallText.arguments inside, none⟩ :=
  CallText.parse?_eq_some.2
    ⟨inside, [], (shaped_call word balanced).solid.trim_eq, word, balanced, rfl, rfl⟩

theorem literal?_call (word : Clause.IsWord name) (behind : List Char) :
    literal? (name ++ '(' :: behind) = none := by
  obtain ⟨x, r, rfl⟩ := List.exists_cons_of_ne_nil word.1
  have mem : '(' ∈ ((x :: r) ++ '(' :: behind).drop 1 := by simp
  unfold literal?
  split
  · next n read => exact absurd (Decimal.isDigit_of_integer? read _ mem) (by decide)
  split
  · next v read => exact absurd (Decimal.isNumeralChar_of_pointed? read _ mem) (by decide)
  · rw [Option.map_eq_none_iff, Option.bind_eq_none_iff]
    intro inside quoted
    obtain ⟨rfl, _⟩ := List.cons.inj (eq_of_quotedInside? quoted)
    exact absurd (word.2 _ List.mem_cons_self) (by decide)

theorem reads_call {name : String} {args : List Term} (word : Clause.IsWord name.toList)
    (recognized : isRecognized name) (balanced : Balanced inside)
    (made : callOf own .mariadb name.toList (CallText.arguments inside) = some ⟨name, args, none⟩) :
    Reads own (.call name args none) (name.toList ++ ('(' :: (inside ++ [')']))) where
  shaped := shaped_call word balanced
  read := by
    have shaped := shaped_call word balanced
    have read : nestedCall? (name.toList ++ ('(' :: (inside ++ [')']))) =
        some ⟨name.toList, CallText.arguments inside, none⟩ := by
      refine nestedCall?_eq_some.2 ⟨parse?_call word balanced, rfl, ?_⟩
      rwa [String.ofList_toList]
    have star : name.toList ++ ('(' :: (inside ++ [')'])) ≠ ['*'] := by
      intro same
      have mem : '(' ∈ ['*'] := same ▸ by simp
      exact absurd mem (by decide)
    rw [argument_eq shaped.solid.trim_eq shaped.ne_nil star, literal?_call word, read]
    dsimp only [Option.elim_none, Option.elim_some]
    rw [made]
    rfl

theorem arguments_intercalate
    (each : ∀ a ∈ texts, Balanced a ∧ Nesting.top.Avoids (· == ',') a ∧ Solid a) :
    CallText.arguments ([','].intercalate texts) = texts := by
  cases texts with
  | nil => rfl
  | cons a texts =>
    have filled : isBlankText ([','].intercalate (a :: texts)) = false := by
      obtain ⟨c, first, solid⟩ := (each a List.mem_cons_self).2.2.first
      have front : a <+: [','].intercalate (a :: texts) := by
        by_cases last : texts = []
        · rw [last, List.intercalate_singleton]
        · rw [List.intercalate_cons_of_ne_nil last, List.append_assoc]
          exact List.prefix_append _ _
      rw [isBlankText, List.all_eq_false]
      exact ⟨c, front.subset (List.mem_of_head? first), by simp [solid]⟩
    have parted : parts ',' ([','].intercalate (a :: texts)) = a :: texts :=
      parts_intercalate rfl (List.cons_ne_nil a texts)
        fun b mem => ⟨(each b mem).1, (each b mem).2.1⟩
    rw [CallText.arguments, filled, if_neg Bool.false_ne_true, parted]
    exact (List.map_congr_left fun b mem => (each b mem).2.2.trim_eq).trans (List.map_id _)

theorem balanced_intercalate (each : ∀ a ∈ texts, Balanced a) :
    Balanced ([','].intercalate texts) := by
  induction texts with
  | nil => exact balanced_nil
  | cons a texts ih =>
    obtain ⟨first, others⟩ := List.forall_mem_cons.1 each
    by_cases last : texts = []
    · rw [last, List.intercalate_singleton]
      exact first
    · rw [List.intercalate_cons_of_ne_nil last]
      have comma : Balanced [','] := balanced_of_not_isMark (List.forall_mem_singleton.2 rfl)
      exact (first.append comma).append (ih others)

theorem toList_callSql {s : Scope} {name : String} {args : List Term}
    (bare : ∀ t ∈ args, ∀ part, t ≠ .datePart part) :
    (callSql s name args (Term.sqlOfList s args)).toList = name.toList ++
      ('(' :: ([','].intercalate (args.map fun t => (t.sql s).toList) ++ [')'])) := by
  have texts : (Term.sqlOfList s args).map String.toList = args.map fun t => (t.sql s).toList := by
    rw [Term.sqlOfList_eq_map, List.map_map]
    rfl
  unfold callSql
  split
  · next part _ _ _ _ => exact absurd rfl (bare _ List.mem_cons_self part)
  · simp only [String.toList_append, String.toList_intercalate, texts]
    simp

theorem arguments_eq {terms : List Term} {s : Scope}
    (reads : ∀ t ∈ terms, Reads own t (t.sql s).toList) :
    arguments own .mariadb (terms.map fun t => (t.sql s).toList) = some terms := by
  induction terms with
  | nil => rw [List.map_nil, arguments]
  | cons t terms ih =>
    obtain ⟨first, others⟩ := List.forall_mem_cons.1 reads
    rw [List.map_cons, arguments, first.read, ih others]
    rfl

theorem callOf_eq {name : String} {args : List Term} {texts : List (List Char)} {d : Dialect}
    (other : isExtract name.toList = false) (settled : call name args d = ⟨name, args, none⟩)
    (read : arguments own d texts = some args) :
    callOf own d name.toList texts = some ⟨name, args, none⟩ := by
  unfold callOf
  rw [other, if_neg Bool.false_ne_true, read, Option.map_some, String.ofList_toList, settled]

/-! ### Extractions -/

def extractionHead (part : DatePart) : List Char := (part.keyword ++ " FROM ").toList

theorem plain_extractionHead (part : DatePart) : ∀ c ∈ extractionHead part,
    isMark c = false ∧ (c == ',') = false := by
  have all : (extractionHead part).all fun c => !isMark c && c != ',' := by cases part <;> decide
  simpa using List.all_eq_true.1 all

theorem head?_extractionHead (part : DatePart) :
    ∃ c, (extractionHead part).head? = some c ∧ isBlank c = false := by
  cases part <;> exact ⟨_, rfl, by decide⟩

theorem extraction?_eq (part : DatePart) {date : List Char} (solid : Solid date) :
    extraction? (extractionHead part ++ date) = some (part.keyword.toList, date) := by
  obtain ⟨d, first, _⟩ := solid.first
  obtain ⟨rest, rfl⟩ := List.head?_eq_some_iff.1 first
  have read : extraction? (extractionHead part ++ d :: rest) =
      some (part.keyword.toList, trim (d :: rest)) := by
    cases part <;> rfl
  rw [read, solid.trim_eq]

theorem callOf_extract (part : DatePart) {date : List Char} {t : Term} (reads : Reads own t date) :
    callOf own .mariadb "EXTRACT".toList [extractionHead part ++ date] =
      some ⟨"EXTRACT", [.datePart part, t], none⟩ := by
  have keyword : DatePart.ofKeyword? (String.ofList part.keyword.toList) = some part := by
    cases part <;> decide
  have found := extraction?_eq part reads.shaped.solid
  rw [callOf, if_pos (by decide)]
  split
  · next word date' read =>
    rw [found] at read
    cases read
    rw [keyword, reads.read]
  · next none =>
    rw [found] at none
    cases none

theorem arguments_extraction (part : DatePart) {date : List Char} {k : Nat}
    (shaped : Shaped k date) :
    Balanced (extractionHead part ++ date) ∧
      CallText.arguments (extractionHead part ++ date) = [extractionHead part ++ date] := by
  have plain := plain_extractionHead part
  have front := balanced_of_not_isMark fun c mem => (plain c mem).1
  have balanced : Balanced (extractionHead part ++ date) := front.append shaped.balanced
  have separate : Nesting.top.Avoids (· == ',') (extractionHead part ++ date) := by
    rw [Nesting.avoids_append, front.ends]
    exact ⟨Nesting.avoids_of_forall fun c mem => (plain c mem).2, shaped.separate⟩
  have solid : Solid (extractionHead part ++ date) := by
    obtain ⟨c, first, begins⟩ := head?_extractionHead part
    obtain ⟨x, last, ends⟩ := shaped.last
    refine ⟨⟨c, ?_, begins⟩, x, ?_, ends⟩
    · rw [List.head?_append, first]
      rfl
    · rw [List.getLast?_append, last]
      rfl
  have alone : CallText.arguments ([','].intercalate [extractionHead part ++ date]) =
      [extractionHead part ++ date] :=
    arguments_intercalate (List.forall_mem_singleton.2 ⟨balanced, separate, solid⟩)
  rw [List.intercalate_singleton] at alone
  exact ⟨balanced, alone⟩

theorem toList_callSql_extract (part : DatePart) (date : Term) :
    (callSql (scope own) "EXTRACT" [.datePart part, date]
        (Term.sqlOfList (scope own) [.datePart part, date])).toList =
      "EXTRACT".toList ++
        ('(' :: (extractionHead part ++ (date.sql (scope own)).toList ++ [')'])) := by
  have text : callSql (scope own) "EXTRACT" [.datePart part, date]
      (Term.sqlOfList (scope own) [.datePart part, date]) =
      "EXTRACT(" ++ part.keyword ++ " FROM " ++ date.sql (scope own) ++ ")" := by
    cases part <;> rfl
  rw [text, extractionHead]
  simp

end Calls

/-! ### Whole terms -/

variable {own : Table}

theorem toList_quoteString {s : String} (plain : backslash ∉ s.toList) :
    (Dialect.mariadb.quoteString s).toList =
      singleQuote :: (doubling singleQuote s.toList ++ [singleQuote]) := by
  have body : Dialect.mariadb.stringBody s.toList = doubling singleQuote s.toList := by
    unfold Dialect.stringBody doubling
    refine List.flatMap_congr fun c mem => ?_
    have other : c ≠ backslash := fun same => plain (same ▸ mem)
    by_cases quote : c = singleQuote
    · rw [quote]
      rfl
    · simp [quote, other]
  rw [Dialect.quoteString, String.toList_ofList, body]
  rfl

theorem Canonical.ne_datePart {t : Term} (h : Canonical own t) (part : DatePart) :
    t ≠ .datePart part := by
  rintro rfl
  cases h

mutual

theorem reads_of_canonical : ∀ {t : Term}, Canonical own t →
    Reads own t (t.sql (scope own)).toList
  | _, .star => by
    rw [Term.sql]
    exact reads_star
  | _, .int n => by
    rw [Term.sql, Literal.sql]
    exact reads_literal (shaped_ofInt n.toInt) (literal?_ofInt n)
  | _, .text (s := s) plain => by
    rw [Term.sql, Literal.sql, toList_quoteString plain]
    have read := literal?_quoted s.toList
    rw [String.ofList_toList] at read
    exact reads_literal (shaped_quoted (by decide) _) read
  | _, .column word known => by
    rw [Term.sql]
    exact reads_column word known
  | _, .call recognized made => by
    obtain ⟨inside, word, balanced, text, made⟩ := callOf_of_canonical made
    rw [Term.sql, text]
    exact reads_call word recognized balanced made
  | _, .binary hl hr tighter first last apart => by
    have left := reads_of_canonical hl
    have right := reads_of_canonical hr
    rw [Term.sql, String.toList_append, String.toList_append, List.append_assoc]
    refine left.binary right tighter first last fun arithmetic k le c head => ?_
    by_cases sign : c = '-' ∨ c = '*'
    · exact apart arithmetic k le c head sign
    · exact isOperatorChar_of_begins k
        (not_isOperatorChar_of_isLead (right.shaped.isLead_head c head) sign)

theorem callOf_of_canonical : ∀ {name : String} {args : List Term}, CanonicalCall own name args →
    ∃ inside, Clause.IsWord name.toList ∧ Balanced inside ∧
      (callSql (scope own) name args (Term.sqlOfList (scope own) args)).toList =
        name.toList ++ ('(' :: (inside ++ [')'])) ∧
      callOf own .mariadb name.toList (CallText.arguments inside) = some ⟨name, args, none⟩
  | _, _, .extract part hd => by
    have date := reads_of_canonical hd
    obtain ⟨balanced, alone⟩ := arguments_extraction part date.shaped
    refine ⟨_, by decide, balanced, toList_callSql_extract part _, ?_⟩
    rw [alone]
    exact callOf_extract part date
  | name, args, .plain word other settled each => by
    have reads : ∀ t ∈ args, Reads own t (t.sql (scope own)).toList :=
      fun t mem => reads_of_canonical (each t mem)
    have texts : ∀ a ∈ args.map fun t => (t.sql (scope own)).toList,
        Balanced a ∧ Nesting.top.Avoids (· == ',') a ∧ Solid a := by
      intro a mem
      obtain ⟨t, among, rfl⟩ := List.mem_map.1 mem
      have shaped := (reads t among).shaped
      exact ⟨shaped.balanced, shaped.separate, shaped.solid⟩
    refine ⟨_, word, balanced_intercalate fun a mem => (texts a mem).1,
      toList_callSql fun t mem => (each t mem).ne_datePart, ?_⟩
    rw [arguments_intercalate texts]
    exact callOf_eq other settled (arguments_eq reads)

end

theorem parseCall_of_canonical {name : String} {args : List Term} (h : CanonicalCall own name args)
    (label : Option String) :
    parseCall own .mariadb ((FunctionCall.term ⟨name, args, label⟩).sql (scope own)) =
      .ok ⟨name, args, none⟩ := by
  obtain ⟨inside, word, balanced, text, made⟩ := callOf_of_canonical h
  have parsed := parse?_call word balanced
  rw [← text] at parsed
  rw [parseCall, FunctionCall.term, Term.sql, parsed]
  dsimp only [Option.bind_eq_bind, Option.bind_some]
  rw [made]
  rfl

/-- A call that was read from a text, written out by itself for the same table, reads as the same
call without its label. -/
theorem parseCall_sql_of_parseCall {text : String} {f : FunctionCall}
    (h : parseCall own .mariadb text = .ok f) (exact : ∀ t ∈ f.args, t.Exact) :
    parseCall own .mariadb (f.term.sql (scope own)) = .ok { f with label := none } :=
  parseCall_of_canonical (canonicalCall_of_parseCall h exact) f.label

theorem parseCall_sql_coalesce :
    let own : Table := ⟨"tabOrder"⟩
    let rest : Term := .binary (own.column "qty").term .sub (.literal (.int 1))
    let f : FunctionCall := ⟨"COALESCE", [rest, .text "it's"], some "rest"⟩
    parseCall own .mariadb "coalesce( qty - 1, 'it''s' ) AS rest" = .ok f ∧
      (∀ t ∈ f.args, t.Exact) ∧
      parseCall own .mariadb (f.term.sql (scope own)) = .ok { f with label := none } := by
  intro own rest f
  have column : argument own .mariadb "qty ".toList = some (own.column "qty").term := by
    have trimmed : trim "qty ".toList = "qty".toList := rfl
    rw [argument_eq trimmed (by decide) (by decide)]
    rfl
  have one : argument own .mariadb " 1".toList = some (.literal (.int 1)) := by
    have trimmed : trim " 1".toList = "1".toList := rfl
    rw [argument_eq trimmed (by decide) (by decide)]
    rfl
  have first : argument own .mariadb "qty - 1".toList = some rest := by
    have trimmed : trim "qty - 1".toList = "qty - 1".toList := rfl
    have cut : splitAtOperator? "qty - 1".toList =
        some ⟨"qty ".toList, "-".toList, " 1".toList⟩ := rfl
    rw [argument_eq trimmed (by decide) (by decide), cut]
    dsimp only [Option.elim_some]
    rw [column, one]
    rfl
  have second : argument own .mariadb "'it''s'".toList = some (.text "it's") := by
    have trimmed : trim "'it''s'".toList = "'it''s'".toList := rfl
    rw [argument_eq trimmed (by decide) (by decide)]
    rfl
  have read : parseCall own .mariadb "coalesce( qty - 1, 'it''s' ) AS rest" = .ok f := by
    have text : CallText.parse? "coalesce( qty - 1, 'it''s' ) AS rest".toList =
        some ⟨"coalesce".toList, ["qty - 1".toList, "'it''s'".toList], some "rest".toList⟩ := rfl
    have args : arguments own .mariadb ["qty - 1".toList, "'it''s'".toList] = some f.args := by
      rw [arguments, first, arguments, second, arguments]
      rfl
    unfold parseCall
    rw [text]
    dsimp only [Option.bind_eq_bind, Option.bind_some]
    unfold callOf
    rw [if_neg (by decide), args]
    rfl
  have exact : ∀ t ∈ f.args, t.Exact := by
    have column : (own.column "qty").term.Exact := Term.exact_of_parts nofun nofun
    have one : (Term.literal (.int 1)).Exact :=
      Term.exact_of_parts (by rintro _ ⟨⟩; trivial) nofun
    have text : (Term.text "it's").Exact := by
      have plain : backslash ∉ "it's".toList := by decide
      exact Term.exact_of_parts (by rintro _ ⟨⟩; exact plain) nofun
    have difference : rest.Exact :=
      Term.exact_of_parts nofun (List.forall_mem_cons.2 ⟨column, List.forall_mem_singleton.2 one⟩)
    exact List.forall_mem_cons.2 ⟨difference, List.forall_mem_singleton.2 text⟩
  exact ⟨read, exact, parseCall_sql_of_parseCall read exact⟩

end ScopedQuery.Function
