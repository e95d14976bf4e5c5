import ScopedQuery.Proofs.Lexical.Number

set_option autoImplicit false

namespace ScopedQuery.Sql

/-- Whether a term makes no comment mark with an operator in front of it. -/
def Term.Follows (op : BinaryOp) (t : Term) : Prop :=
  isJoint op.token.toList ∨ ∀ s, ∃ c, (t.sql s).toList.head? = some c ∧
    opensComment op.token.toList.getLast? (some c) = false

mutual

def Term.Tame : Term → Prop
  | .column _ | .star _ | .literal _ | .position _ | .datePart _ => True
  | .tuple items => Term.TameAll items
  | .call function args _ =>
    (∀ c ∈ function.toList, Text.isWordChar c) ∧ Term.TameAll args
  | .binary left op right => left.Tame ∧ right.Tame ∧ right.Follows op
  | .condition c => c.Tame

def Term.TameAll : List Term → Prop
  | [] => True
  | t :: ts => t.Tame ∧ Term.TameAll ts

def Criterion.Tame : Criterion → Prop
  | .compare left op right => left.Tame ∧ right.Tame ∧ right.Follows op
  | .member term values _ => term.Tame ∧ Term.TameAll values
  | .isNull term _ => term.Tame
  | .like term pattern _ | .regex term pattern => term.Tame ∧ pattern.Tame
  | .between term low high => term.Tame ∧ low.Tame ∧ high.Tame
  | .conj items | .disj items => Criterion.TameAll items
  | .neg inner => inner.Tame
  | .raw _ => False

def Criterion.TameAll : List Criterion → Prop
  | [] => True
  | c :: cs => c.Tame ∧ Criterion.TameAll cs

end

theorem Term.tameAll_iff (ts : List Term) : Term.TameAll ts ↔ ∀ t ∈ ts, t.Tame := by
  induction ts with
  | nil => simp [Term.TameAll]
  | cons t ts ih => simp [Term.TameAll, ih]

theorem Criterion.tameAll_iff (cs : List Criterion) : Criterion.TameAll cs ↔ ∀ c ∈ cs, c.Tame := by
  induction cs with
  | nil => simp [Criterion.TameAll]
  | cons c cs ih => simp [Criterion.TameAll, ih]

/-- Comparisons are complete marks, so that every term can stand behind them. -/
theorem Term.follows_eq (t : Term) : t.Follows .eq := .inl (by decide)

variable {d : Dialect}

/-! ### Putting pieces together -/

theorem Piece.between {a b c : List Char} (front : Reads d (Reader.Resting d) a Reader.Ready)
    (h : Piece d b) (close : isJoint c) : Tail d (a ++ b ++ c) :=
  (front.append h).append (tail_joint close)

theorem Piece.enclosed {a : List Char} (h : Piece d a) :
    Tail d ("(".toList ++ a ++ ")".toList) :=
  h.between (reads_joint (by decide)) (by decide)

theorem piece_suffixed {a b : List Char} (ha : Piece d a) (joint : isJoint b) : Piece d (a ++ b) :=
  ha.append (tail_joint joint)

theorem piece_infixed {a b c : List Char} (ha : Piece d a) (hc : Piece d c) (joint : isJoint b) :
    Piece d (a ++ b ++ c) := by
  rw [List.append_assoc]
  exact ha.append (hc.after_joint joint)

theorem piece_intercalate {s : String} (joint : isJoint s.toList) {texts : List String}
    (h : ∀ t ∈ texts, Piece d t.toList) : Piece d (s.intercalate texts).toList := by
  induction texts with
  | nil => exact Tail.nil.piece
  | cons t ts ih =>
    have first := h t List.mem_cons_self
    have rest := ih fun u hu => h u (List.mem_cons_of_mem _ hu)
    by_cases last : ts = []
    · subst last
      simpa using first
    · rw [String.intercalate_cons_of_ne_nil last, String.toList_append, String.toList_append]
      exact piece_infixed first rest joint

/-- A text behind the first half of a comment mark is read as any other, unless it begins with the
second half. -/
theorem Piece.behind {a : List Char} {x c : Char} (h : Piece d a) (head : a.head? = some c)
    (apart : opensComment (some x) (some c) = false) :
    Reads d (fun r => r = ⟨.code, some x⟩) a (Reader.Resting d) := by
  rintro r rfl
  obtain ⟨s, run, rests⟩ := h _ Reader.start_ready
  refine ⟨s, ?_, rests⟩
  obtain ⟨tail, rfl⟩ := List.head?_eq_some_iff.1 head
  rw [Reader.run_cons] at run ⊢
  have free : opensComment none (some c) = false := by simp [opensComment]
  have same : Reader.step d ⟨.code, some x⟩ c = Reader.step d Reader.start c := by
    simp only [Reader.step, Reader.start, apart, free]
  rw [same]
  exact run

theorem piece_binary {op : BinaryOp} {a b : List Char} (ha : Piece d a) (hb : Piece d b)
    (follows : isJoint op.token.toList ∨
      ∃ c, b.head? = some c ∧ opensComment op.token.toList.getLast? (some c) = false) :
    Piece d (a ++ op.token.toList ++ b) := by
  rw [List.append_assoc]
  refine Reads.append ha ?_
  rcases follows with joint | ⟨c, head, apart⟩
  · exact hb.after_joint joint
  have half : ∀ x, isCodeChar x → Reads d (Reader.Resting d) [x] fun r => r = ⟨.code, some x⟩ := by
    intro x code r hr
    exact ⟨_, by simp [Reader.step_code hr.1 code (hr.2.opensComment _)], rfl⟩
  cases op with
  | sub => exact (half '-' rfl).append (hb.behind head apart)
  | div => exact (half '/' rfl).append (hb.behind head apart)
  | add | mul | eq | ne | lt | gt | le | ge => exact hb.after_joint (by decide)

/-- Code with a quotation in it: what the reader at the head of a text reads, one behind a term
reads too. -/
theorem reads_of_run {cs : List Char} {e : Char} (code : cs.head?.any isCodeChar)
    (run : Reader.run d Reader.start cs = some ⟨.code, some e⟩) (settled : e ≠ '-' ∧ e ≠ '/') :
    Reads d (Reader.Resting d) cs Reader.Ready := by
  intro r hr
  refine ⟨⟨.code, some e⟩, ?_, rfl, by simpa [Reader.Settled] using settled⟩
  cases cs with
  | nil => cases code
  | cons c cs =>
    have first : ∀ r : Reader, r.Resting d → r.step d c = some ⟨.code, some c⟩ := fun r hr =>
      Reader.step_code hr.1 code (hr.2.opensComment _)
    rw [Reader.run_cons, first _ Reader.start_ready.resting] at run
    rw [Reader.run_cons, first r hr]
    exact run

theorem piece_word {cs : List Char} (h : ∀ c ∈ cs, Text.isWordChar c) : Piece d cs := by
  by_cases empty : cs = []
  · subst empty
    exact Tail.nil.piece
  · refine (tail_numeral empty fun c hc => ?_).piece
    rw [isNumeralChar, h c hc, Bool.true_or]

/-! ### Columns, extractions and calls -/

theorem piece_column (s : Scope) (c : Column) : Piece s.dialect (c.sql s).toList := by
  unfold Column.sql
  split
  · rw [String.toList_append, String.toList_append]
    exact piece_infixed (piece_quoteIdentifier _ _) (piece_quoteIdentifier _ _) (by decide)
  · exact piece_quoteIdentifier _ _

theorem piece_star (s : Scope) (t : Option Table) :
    Piece s.dialect ((Term.star t).sql s).toList := by
  have all : Piece s.dialect "*".toList := piece_joint (by decide)
  cases t with
  | none => exact all
  | some t =>
    rw [Term.sql]
    split
    · rw [String.toList_append]
      exact piece_suffixed (piece_quoteIdentifier _ _) (by decide)
    · exact all

theorem isWordChar_keyword (part : DatePart) : ∀ c ∈ part.keyword.toList, Text.isWordChar c := by
  have word : part.keyword.toList.all Text.isWordChar := by cases part <;> decide
  exact List.all_eq_true.1 word

theorem reads_timeFormat (part : DatePart) :
    Reads .sqlite (Reader.Resting .sqlite)
      ("CAST(STRFTIME('" ++ part.timeFormat ++ "',").toList Reader.Ready := by
  rw [String.toList_append, String.toList_append]
  cases part <;> exact reads_of_run (e := ',') rfl rfl (by decide)

theorem piece_extract (part : DatePart) {date : String} (h : Piece d date.toList) :
    Piece d (extractSql d part date).toList := by
  have named : ∀ d, Piece d date.toList →
      Piece d ("EXTRACT(" ++ part.keyword ++ " FROM " ++ date ++ ")").toList := by
    intro d h
    have word : Piece d part.keyword.toList := piece_word (isWordChar_keyword part)
    have front : Reads d (Reader.Resting d) "EXTRACT(".toList Reader.Ready :=
      reads_joint (by decide)
    have joint : Reads d (Reader.Resting d) " FROM ".toList Reader.Ready := reads_joint (by decide)
    have whole := h.between ((front.append word).append joint) (c := ")".toList) (by decide)
    simpa only [String.toList_append] using whole.piece
  have formatted : Piece .sqlite date.toList → ∀ part : DatePart,
      Piece .sqlite
        ("CAST(STRFTIME('" ++ part.timeFormat ++ "'," ++ date ++ ") AS INTEGER)").toList := by
    intro h part
    have whole := h.between (reads_timeFormat part) (c := ") AS INTEGER)".toList) (by decide)
    simpa only [String.toList_append] using whole.piece
  cases d with
  | mariadb => exact named _ h
  | postgres => exact named _ h
  | sqlite =>
    cases part with
    | quarter =>
      have front : Reads .sqlite (Reader.Resting .sqlite) "((CAST(STRFTIME('%m',".toList
          Reader.Ready := reads_of_run (e := ',') rfl rfl (by decide)
      have whole := h.between front (c := ") AS INTEGER)+2)/3)".toList) (by decide)
      change Piece .sqlite ("((CAST(STRFTIME('%m'," ++ date ++ ") AS INTEGER)+2)/3)").toList
      simpa only [String.toList_append] using whole.piece
    | year | month | week | day | hour | minute | second => exact formatted h _

theorem piece_callSql (s : Scope) {function : String} {args : List Term} {texts : List String}
    (word : ∀ c ∈ function.toList, Text.isWordChar c)
    (h : ∀ t ∈ texts, Piece s.dialect t.toList) :
    Piece s.dialect (callSql s function args texts).toList := by
  unfold callSql
  split
  · exact piece_extract _ (h _ (by simp))
  · have inside := (piece_intercalate (s := ",") (by decide) h).enclosed
    have whole := (piece_word word).append inside
    simpa only [String.toList_append, List.append_assoc] using whole

/-! ### Terms and criteria -/

theorem piece_operand (outer : Connective) (c : Criterion) {text : String}
    (h : Piece d text.toList) : Piece d (operandSql outer c text).toList := by
  have enclosed : Piece d ("(" ++ text ++ ")").toList := by
    simpa only [String.toList_append] using h.enclosed.piece
  unfold operandSql
  split <;> try split
  all_goals first | exact h | exact enclosed

mutual

theorem piece_term (s : Scope) :
    ∀ t : Term, t.Tame → Piece s.dialect (t.sql s).toList
  | .column c, _ => piece_column s c
  | .star t, _ => piece_star s t
  | .literal v, _ => piece_literal v
  | .tuple items, tame => by
    have inside := piece_intercalate (s := ",") (by decide) (piece_terms s items tame)
    simpa only [Term.sql, String.toList_append] using inside.enclosed.piece
  | .position n, _ => piece_ofNat n
  | .call function args label, tame => by
    rw [Term.sql]
    exact piece_callSql s tame.1 (piece_terms s args tame.2)
  | .binary left op right, tame => by
    obtain ⟨hl, hr, follows⟩ := tame
    rw [Term.sql, String.toList_append, String.toList_append]
    exact piece_binary (piece_term s left hl) (piece_term s right hr) (follows.imp_right (· s))
  | .datePart part, _ => piece_word (isWordChar_keyword part)
  | .condition c, tame => piece_criterion s c tame

theorem piece_terms (s : Scope) :
    ∀ ts : List Term, Term.TameAll ts → ∀ x ∈ Term.sqlOfList s ts, Piece s.dialect x.toList
  | [], _ => by simp [Term.sqlOfList]
  | t :: ts, tame => by
    rw [Term.sqlOfList, List.forall_mem_cons]
    exact ⟨piece_term s t tame.1, piece_terms s ts tame.2⟩

theorem piece_criterion (s : Scope) :
    ∀ c : Criterion, c.Tame → Piece s.dialect (c.sql s).toList
  | .compare left op right, tame => by
    obtain ⟨hl, hr, follows⟩ := tame
    rw [Criterion.sql, String.toList_append, String.toList_append]
    exact piece_binary (piece_term s left hl) (piece_term s right hr) (follows.imp_right (· s))
  | .member term values negated, tame => by
    have inside := piece_intercalate (s := ",") (by decide) (piece_terms s values tame.2)
    have mark : isJoint (if negated then " NOT IN (" else " IN (" : String).toList := by
      cases negated <;> decide
    have whole := (piece_infixed (piece_term s term tame.1) inside mark)
    simpa only [Criterion.sql, String.toList_append] using
      piece_suffixed whole (b := ")".toList) (by decide)
  | .isNull term negated, tame => by
    have mark : isJoint (if negated then " IS NOT NULL" else " IS NULL" : String).toList := by
      cases negated <;> decide
    rw [Criterion.sql, String.toList_append]
    exact piece_suffixed (piece_term s term tame) mark
  | .like term pattern negated, tame => by
    have mark : isJoint (if negated then " NOT LIKE " else " LIKE " : String).toList := by
      cases negated <;> decide
    rw [Criterion.sql, String.toList_append, String.toList_append]
    exact piece_infixed (piece_term s term tame.1) (piece_term s pattern tame.2) mark
  | .regex term pattern, tame => by
    have mark : isJoint (" ".toList ++ s.dialect.regexOperator.toList ++ " ".toList) := by
      cases s.dialect <;> decide
    have whole := piece_infixed (piece_term s term tame.1) (piece_term s pattern tame.2) mark
    simpa only [Criterion.sql, String.toList_append, List.append_assoc] using whole
  | .between term low high, tame => by
    have range := piece_infixed (piece_term s term tame.1) (piece_term s low tame.2.1)
      (b := " BETWEEN ".toList) (by decide)
    have whole := piece_infixed range (piece_term s high tame.2.2) (b := " AND ".toList) (by decide)
    simpa only [Criterion.sql, String.toList_append] using whole
  | .conj items, tame => by
    rw [Criterion.sql]
    exact piece_intercalate (by decide) (piece_operands s .conjunction items tame)
  | .disj items, tame => by
    rw [Criterion.sql]
    exact piece_intercalate (by decide) (piece_operands s .disjunction items tame)
  | .neg inner, tame => by
    have front : Reads s.dialect (Reader.Resting s.dialect) "NOT (".toList Reader.Ready :=
      reads_joint (by decide)
    have whole := (piece_criterion s inner tame).between front (c := ")".toList) (by decide)
    simpa only [Criterion.sql, String.toList_append] using whole.piece

theorem piece_operands (s : Scope) (outer : Connective) :
    ∀ cs : List Criterion, Criterion.TameAll cs →
      ∀ x ∈ Criterion.operands s outer cs, Piece s.dialect x.toList
  | [], _ => by simp [Criterion.operands]
  | c :: cs, tame => by
    rw [Criterion.operands, List.forall_mem_cons]
    exact ⟨piece_operand outer c (piece_criterion s c tame.1), piece_operands s outer cs tame.2⟩

end

end ScopedQuery.Sql
