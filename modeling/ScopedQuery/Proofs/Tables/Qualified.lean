import ScopedQuery.Proofs.Tables.Span

set_option autoImplicit false

namespace ScopedQuery.Sql

variable {d : Dialect} {cs : List Char} {m n : List (List Char)}

/-! ### Names and literals -/

theorem span_of_lexeme {t : Lexeme} (h : d.lexemes cs = [t]) (code : isCode d 0 0 [t]) :
    Span d 0 0 cs [] [] := by
  rw [← h] at code
  exact span_of_isCode code

theorem span_quoteIdentifier (d : Dialect) (name : String) :
    Span d 0 0 (d.quoteIdentifier name).toList [] [] :=
  span_of_lexeme (d.lexemes_quoteIdentifier name) rfl

theorem span_quoteString (d : Dialect) (value : String) :
    Span d 0 0 (d.quoteString value).toList [] [] :=
  span_of_lexeme (d.lexemes_quoteString value) rfl

theorem span_number (ne : ∃ c ∈ cs.head?, c.isDigit) (numeral : ∀ c ∈ cs, isNumeralChar c) :
    Span d 0 0 cs [] [] := by
  obtain ⟨c, head, digit⟩ := ne
  obtain ⟨r, rfl⟩ := List.head?_eq_some_iff.1 head
  exact span_of_lexeme (d.lexemes_number digit (List.forall_mem_cons.1 numeral).2) rfl

theorem span_signed (negative : Bool) (h : Span d 0 0 cs [] []) :
    Span d 0 0 (Decimal.signText negative ++ cs) [] [] := by
  cases negative with
  | false => exact h
  | true => exact h.behind_code (x := ['-']) (by decide) (by decide)

theorem span_digits (n : Nat) : Span d 0 0 (Decimal.digits n) [] [] := by
  refine span_number ?_ (isNumeralChar_digits n)
  obtain ⟨c, r, eq⟩ := List.exists_cons_of_ne_nil (digits_ne_nil n)
  exact ⟨c, by rw [eq]; rfl, isDigit_digits n c (by rw [eq]; exact List.mem_cons_self)⟩

theorem span_ofFloat (x : Float) : Span d 0 0 (Decimal.ofFloat floatStyle x).toList [] [] := by
  rw [Decimal.ofFloat, String.toList_ofList]
  cases Decimal.Parts.ofBits x.toBits.toNat with
  | nan => exact span_of_isSpan (by decide)
  | infinite negative => exact span_signed negative (span_of_isSpan (by decide))
  | finite negative m e narrow =>
    have digits : ∀ c ∈ (if m == 0 then ⟨['0'], 1⟩
        else Decimal.shortest floatStyle.tie m e narrow : Decimal.Digits).digits, c.isDigit := by
      split
      · exact List.forall_mem_singleton.2 rfl
      · exact isDigit_shortest _ _ _ _
    exact span_signed negative (span_number (head_positionalText digits)
      (isNumeralChar_positionalText fun c mem => isNumeralChar_of_isDigit (digits c mem)))

theorem span_literal (v : Literal) : Span d 0 0 (v.sql d).toList [] [] := by
  cases v with
  | null =>
    change Span d 0 0 "NULL".toList [] []
    exact span_of_isSpan (by decide)
  | bool b =>
    have words : isSpan 0 0 "true".toList ∧ isSpan 0 0 "false".toList := by decide
    cases b
    · exact span_of_isSpan words.2
    · exact span_of_isSpan words.1
  | int n =>
    rw [Literal.sql, toList_ofInt]
    exact span_signed _ (span_digits _)
  | float x => exact span_ofFloat x
  | text s => exact span_quoteString d s

/-! ### Terms and criteria -/

def Scope.qualifiers (s : Scope) (table : Table) : List (List Char) :=
  if s.qualify || table != s.table then [table.name.toList] else []

mutual

def Term.qualifiers (s : Scope) : Term → List (List Char)
  | .column c => s.qualifiers c.table
  | .star (some table) => s.qualifiers table
  | .star none | .literal _ | .position _ | .datePart _ => []
  | .tuple items => Term.qualifiersOfList s items
  | .call _ args _ => Term.qualifiersOfList s args
  | .binary left _ right => left.qualifiers s ++ right.qualifiers s
  | .condition c => c.qualifiers s

def Term.qualifiersOfList (s : Scope) : List Term → List (List Char)
  | [] => []
  | t :: ts => t.qualifiers s ++ Term.qualifiersOfList s ts

/-- The names in front of the columns of a criterion. Those of a condition in SQL are read from its
text. -/
def Criterion.qualifiers (s : Scope) : Criterion → List (List Char)
  | .compare left _ right => left.qualifiers s ++ right.qualifiers s
  | .member term values _ => term.qualifiers s ++ Term.qualifiersOfList s values
  | .isNull term _ => term.qualifiers s
  | .like term pattern _ | .regex term pattern => term.qualifiers s ++ pattern.qualifiers s
  | .between term low high => term.qualifiers s ++ low.qualifiers s ++ high.qualifiers s
  | .conj items | .disj items => Criterion.qualifiersOfList s items
  | .neg inner => inner.qualifiers s
  | .raw sql => Lexeme.qualifiers (s.dialect.lexemes sql.toList)

def Criterion.qualifiersOfList (s : Scope) : List Criterion → List (List Char)
  | [] => []
  | c :: cs => c.qualifiers s ++ Criterion.qualifiersOfList s cs

end

theorem Term.qualifiersOfList_eq_flatMap (s : Scope) (ts : List Term) :
    Term.qualifiersOfList s ts = ts.flatMap (Term.qualifiers s) := by
  induction ts with
  | nil => rfl
  | cons t ts ih => rw [Term.qualifiersOfList, ih, List.flatMap_cons]

theorem Criterion.qualifiersOfList_eq_flatMap (s : Scope) (cs : List Criterion) :
    Criterion.qualifiersOfList s cs = cs.flatMap (Criterion.qualifiers s) := by
  induction cs with
  | nil => rfl
  | cons c cs ih => rw [Criterion.qualifiersOfList, ih, List.flatMap_cons]

theorem apart_quoteIdentifier (name : String) {c : Char} (ne : c ≠ d.quoteChar) :
    d.Apart (d.quoteIdentifier name).toList (c :: cs) := by
  rintro x last y ⟨⟩
  rw [Dialect.quoteIdentifier, String.toList_ofList, List.getLast?_concat] at last
  obtain rfl := Option.some.inj last
  refine ⟨fun numeral => ?_, fun _ => ne⟩
  cases d <;> exact absurd numeral (by decide)

theorem span_qualified (name : String) {t : Lexeme} (h : d.lexemes cs = [t])
    (code : isCode d 0 0 [t]) (apart : d.Apart ['.'] cs) :
    Span d 0 0 ((d.quoteIdentifier name).toList ++ '.' :: cs) [name.toList] [] := by
  have point : d.lexemes ['.'] = [.sign '.'] ∧ '.' ≠ d.quoteChar := by cases d <;> decide
  have named : d.Closed (d.quoteIdentifier name).toList :=
    (span_quoteIdentifier d name).closed
  have pointed : d.Closed ['.'] := by
    rw [Dialect.Closed, point.1]
    cases d <;> rfl
  have closed : d.Closed cs := (span_of_lexeme h code).closed
  have behind : d.lexemes ('.' :: cs) = [.sign '.', t] := by
    have both := pointed.lexemes_append apart
    rwa [point.1, h] at both
  have before : d.Apart (d.quoteIdentifier name).toList ('.' :: cs) :=
    apart_quoteIdentifier name point.2
  have lexemes := named.lexemes_append before
  rw [d.lexemes_quoteIdentifier, behind, List.singleton_append] at lexemes
  unfold isCode at code
  simp only [Bool.and_eq_true, bne_iff_ne, beq_iff_eq] at code
  have depth : Lexeme.depth? 0 [.name name.toList, .sign '.', t] = some 0 := by
    rw [← code.2]
    rfl
  refine ⟨named.append (pointed.append closed apart) before, ?_, ?_, fun k more => ?_⟩
  · simp [lexemes]
  · simp [lexemes, Lexeme.qualifiers, Lexeme.called?]
  · rw [lexemes, Lexeme.sources_append depth, ite_self, List.nil_append]

theorem span_column (s : Scope) (c : Column) :
    Span s.dialect 0 0 (c.sql s).toList (s.qualifiers c.table) [] := by
  unfold Column.sql Scope.qualifiers Scope.ident
  split
  · rw [String.toList_append, String.toList_append, List.append_assoc]
    refine span_qualified _ (s.dialect.lexemes_quoteIdentifier c.name) rfl ?_
    rw [Dialect.quoteIdentifier, String.toList_ofList]
    rintro _ ⟨⟩ _ ⟨⟩
    cases s.dialect <;> decide
  · exact span_quoteIdentifier s.dialect c.name

theorem span_star (s : Scope) (t : Option Table) :
    Span s.dialect 0 0 ((Term.star t).sql s).toList ((Term.star t).qualifiers s) [] := by
  have all : Span s.dialect 0 0 "*".toList [] [] := span_of_isSpan (by decide)
  cases t with
  | none => exact all
  | some t =>
    rw [Term.sql, Term.qualifiers, Scope.qualifiers]
    split
    · rw [String.toList_append]
      obtain ⟨star, code⟩ : s.dialect.lexemes ['*'] = [.sign '*'] ∧
          isCode s.dialect 0 0 [.sign '*'] := by
        cases s.dialect <;> decide
      exact span_qualified t.name star code (Dialect.apart_of_head rfl)
    · exact all

theorem span_function {function : List Char} (word : ∀ c ∈ function, Text.isWordChar c) :
    Span d 0 1 (function ++ ['(']) [] [] := by
  have opens : Span d 0 1 ['('] [] [] := span_of_isSpan (by decide)
  by_cases empty : function = []
  · rwa [empty]
  have paren : d.lexemes ['('] = [.sign '('] ∧ d.closes (.sign '(') := by cases d <;> decide
  obtain ⟨t, read, code⟩ : ∃ t, d.lexemes function = [t] ∧ isCode d 0 1 [t, .sign '('] := by
    have quiet (t : Lexeme) (plain : d.closes t) (other : ∀ c, t ≠ .sign c) :
        isCode d 0 1 [t, .sign '('] := by
      simp [isCode, plain, other, paren.2, Lexeme.qualifiers, Lexeme.depth?, Lexeme.introduces,
        Lexeme.quoted?, Lexeme.after]
    -- A name that begins with a digit is read as a number.
    rcases d.lexemes_of_word empty word with read | read
    · exact ⟨_, read, quiet _ rfl (by simp)⟩
    · exact ⟨_, read, quiet _ rfl (by simp)⟩
  have closed : d.Closed function := by
    rw [Dialect.Closed, read]
    unfold isCode at code
    simp only [List.all_cons, Bool.and_eq_true] at code
    simp [code.1.1.1.1]
  have lexemes := closed.lexemes_append (b := ['(']) (Dialect.apart_of_head rfl)
  rw [read, paren.1, List.singleton_append] at lexemes
  refine span_of_isCode ?_
  rwa [lexemes]

theorem span_extract (part : DatePart) {date : String} (h : Span d 0 0 date.toList n []) :
    Span d 0 0 (extractSql d part date).toList n [] := by
  have named (d : Dialect) (h : Span d 0 0 date.toList n []) :
      Span d 0 0 ("EXTRACT(" ++ part.keyword ++ " FROM " ++ date ++ ")").toList n [] := by
    have front : isSpan 0 1 ("EXTRACT(" ++ part.keyword ++ " FROM ").toList ∧
        ("EXTRACT(" ++ part.keyword ++ " FROM ").toList.getLast?.any isBreak := by
      cases part <;> decide
    rw [String.toList_append, String.toList_append]
    exact h.enclosed (span_of_isSpan front.1) front.2 (by decide) (by decide)
  have formatted (part : DatePart) (h : Span .sqlite 0 0 date.toList n []) :
      Span .sqlite 0 0
        ("CAST(STRFTIME('" ++ part.timeFormat ++ "'," ++ date ++ ") AS INTEGER)").toList n [] := by
    have front : isSpan 0 2 ("CAST(STRFTIME('" ++ part.timeFormat ++ "',").toList ∧
        ("CAST(STRFTIME('" ++ part.timeFormat ++ "',").toList.getLast?.any isBreak := by
      cases part <;> decide
    rw [String.toList_append, String.toList_append]
    exact h.enclosed (span_of_isSpan front.1) front.2 (by decide) (by decide)
  cases d with
  | mariadb => exact named _ h
  | postgres => exact named _ h
  | sqlite =>
    cases part with
    | quarter =>
      have front : isSpan 0 4 "((CAST(STRFTIME('%m',".toList := by decide
      have whole := h.enclosed (d := .sqlite) (j := 0) (y := ") AS INTEGER)+2)/3)".toList)
        (span_of_isSpan front) (by decide) (by decide) (by decide)
      change Span .sqlite 0 0 ("((CAST(STRFTIME('%m'," ++ date ++ ") AS INTEGER)+2)/3)").toList n []
      simpa only [String.toList_append, List.nil_append] using whole
    | year | month | week | day | hour | minute | second => exact formatted _ h

theorem span_callSql (s : Scope) {function : String} {args : List Term}
    (word : ∀ c ∈ function.toList, Text.isWordChar c)
    (each : ∀ t ∈ args, Span s.dialect 0 0 (t.sql s).toList (t.qualifiers s) []) :
    Span s.dialect 0 0 (callSql s function args (Term.sqlOfList s args)).toList
      (Term.qualifiersOfList s args) [] := by
  rw [Term.qualifiersOfList_eq_flatMap, Term.sqlOfList_eq_map]
  unfold callSql
  split
  · next part t _ date texts =>
    obtain ⟨_, rfl⟩ : (Term.datePart part).sql s = _ ∧ t.sql s = date := by simpa using texts
    have inside := span_extract part (each t (by simp))
    simpa [Term.qualifiers] using inside
  · have texts := span_intercalate (s := ",") (by decide) each
    have whole := texts.enclosed (span_function word) (j := 0) (y := [')'])
      (isBreak_getLast?_append rfl) (by decide) (by decide)
    simpa [List.append_assoc] using whole

theorem span_operand (outer : Connective) (c : Criterion) {text : String}
    (h : Span d 0 0 text.toList n []) : Span d 0 0 (operandSql outer c text).toList n [] := by
  have enclosed : Span d 0 0 ("(" ++ text ++ ")").toList n [] := by
    have opens : Span d 0 1 "(".toList [] [] := span_of_isSpan (by decide)
    rw [String.toList_append, String.toList_append]
    exact h.enclosed opens (by decide) (by decide) (by decide)
  unfold operandSql
  split <;> try split
  all_goals first | exact h | exact enclosed

theorem span_infixed {x a b : String} (ha : Span d 0 0 a.toList m [])
    (hb : Span d 0 0 b.toList n []) (between : isBetween x) :
    Span d 0 0 (a ++ x ++ b).toList (m ++ n) [] := by
  rw [String.toList_append, String.toList_append]
  exact ha.joined hb between

theorem isBetween_token (op : BinaryOp) : isBetween op.token := by
  cases op <;> decide

theorem span_operands (s : Scope) {outer : Connective} {items : List Criterion}
    (each : ∀ c ∈ items, Span s.dialect 0 0 (operandSql outer c (c.sql s)).toList
      (c.qualifiers s) []) :
    Span s.dialect 0 0 (outer.infixText.intercalate (Criterion.operands s outer items)).toList
      (Criterion.qualifiersOfList s items) [] := by
  have between : isBetween outer.infixText := by cases outer <;> decide
  rw [Criterion.operands_eq_map, Criterion.qualifiersOfList_eq_flatMap]
  exact span_intercalate between each

mutual

theorem span_term (s : Scope) :
    ∀ t : Term, t.Tame → Span s.dialect 0 0 (t.sql s).toList (t.qualifiers s) []
  | .column c, _ => span_column s c
  | .star t, _ => span_star s t
  | .literal v, _ => span_literal v
  | .tuple items, tame => by
    have texts := span_intercalate (s := ",") (by decide) (span_terms s items tame)
    have opens : Span s.dialect 0 1 "(".toList [] [] := span_of_isSpan (by decide)
    rw [Term.sql, Term.qualifiers, Term.qualifiersOfList_eq_flatMap, Term.sqlOfList_eq_map,
      String.toList_append, String.toList_append]
    exact texts.enclosed opens (by decide) (by decide) (by decide)
  | .position n, _ => by
    rw [Term.sql, Decimal.ofNat, String.toList_ofList]
    exact span_digits n
  | .call function args label, tame => by
    rw [Term.sql, Term.qualifiers]
    exact span_callSql s tame.1 (span_terms s args tame.2)
  | .binary left op right, tame =>
    span_infixed (span_term s left tame.1) (span_term s right tame.2.1) (isBetween_token op)
  | .datePart part, _ => by
    have word : isSpan 0 0 part.keyword.toList := by cases part <;> decide
    exact span_of_isSpan word
  | .condition c, tame => span_criterion s c tame

theorem span_terms (s : Scope) : ∀ ts : List Term, Term.TameAll ts →
    ∀ t ∈ ts, Span s.dialect 0 0 (t.sql s).toList (t.qualifiers s) []
  | [], _ => List.forall_mem_nil _
  | t :: ts, tame => List.forall_mem_cons.2 ⟨span_term s t tame.1, span_terms s ts tame.2⟩

theorem span_criterion (s : Scope) :
    ∀ c : Criterion, c.Tame → Span s.dialect 0 0 (c.sql s).toList (c.qualifiers s) []
  | .compare left op right, tame =>
    span_infixed (span_term s left tame.1) (span_term s right tame.2.1) (isBetween_token op)
  | .member term values negated, tame => by
    have texts := span_intercalate (s := ",") (by decide) (span_terms s values tame.2)
    have opens : isSpan 0 1 (if negated then " NOT IN (" else " IN (" : String).toList ∧
        (if negated then " NOT IN (" else " IN (" : String).toList.head?.all isBreak ∧
        (if negated then " NOT IN (" else " IN (" : String).toList.getLast?.any isBreak := by
      cases negated <;> decide
    rw [Criterion.sql, Criterion.qualifiers, Term.qualifiersOfList_eq_flatMap,
      Term.sqlOfList_eq_map, String.toList_append, String.toList_append, String.toList_append]
    exact texts.enclosed ((span_term s term tame.1).then_code opens.1 opens.2.1)
      (isBreak_getLast?_append opens.2.2) (by decide) (by decide)
  | .isNull term negated, tame => by
    have code : isSpan 0 0 (if negated then " IS NOT NULL" else " IS NULL" : String).toList ∧
        (if negated then " IS NOT NULL" else " IS NULL" : String).toList.head?.all isBreak := by
      cases negated <;> decide
    rw [Criterion.sql, Criterion.qualifiers, String.toList_append]
    exact (span_term s term tame).then_code code.1 code.2
  | .like term pattern negated, tame => by
    have between : isBetween (if negated then " NOT LIKE " else " LIKE ") := by
      cases negated <;> decide
    exact span_infixed (span_term s term tame.1) (span_term s pattern tame.2) between
  | .regex term pattern, tame => by
    have between : isBetween (" " ++ s.dialect.regexOperator ++ " ") := by
      cases s.dialect <;> decide
    have whole := span_infixed (span_term s term tame.1) (span_term s pattern tame.2) between
    simpa only [Criterion.sql, Criterion.qualifiers, String.append_assoc] using whole
  | .between term low high, tame => by
    have range := span_infixed (x := " BETWEEN ") (span_term s term tame.1)
      (span_term s low tame.2.1) (by decide)
    exact span_infixed (x := " AND ") range (span_term s high tame.2.2) (by decide)
  | .conj items, tame => span_operands s (span_criteria s .conjunction items tame)
  | .disj items, tame => span_operands s (span_criteria s .disjunction items tame)
  | .neg inner, tame => by
    have opens : Span s.dialect 0 1 "NOT (".toList [] [] := span_of_isSpan (by decide)
    rw [Criterion.sql, Criterion.qualifiers, String.toList_append, String.toList_append]
    exact (span_criterion s inner tame).enclosed opens (by decide) (by decide) (by decide)

theorem span_criteria (s : Scope) (outer : Connective) :
    ∀ cs : List Criterion, Criterion.TameAll cs → ∀ c ∈ cs,
      Span s.dialect 0 0 (operandSql outer c (c.sql s)).toList (c.qualifiers s) []
  | [], _ => List.forall_mem_nil _
  | c :: cs, tame => List.forall_mem_cons.2
    ⟨span_operand outer c (span_criterion s c tame.1), span_criteria s outer cs tame.2⟩

end

end ScopedQuery.Sql
