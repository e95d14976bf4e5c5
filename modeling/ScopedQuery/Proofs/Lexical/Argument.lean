import ScopedQuery.Proofs.Decimal.Sign
import ScopedQuery.Proofs.Function.Denotation
import ScopedQuery.Proofs.Lexical.Expression

set_option autoImplicit false

/-!
The terms that arguments denote are tame. The names in them are bare words, and no operand makes a
comment mark with the operator in front of it: an operand's text begins with a sign or with a star
only if the argument that was read did, and an operator is cut at its last place, so that none
follows directly.
-/

namespace ScopedQuery.Function

open Sql

/-! ### Operators -/

theorem level_of_splitAtOperator? {cs : List Char} {o : Text.Occurrence}
    (h : splitAtOperator? cs = some o) :
    ∃ tokens last, (tokens, last) ∈ levels ∧ Text.findToken? tokens last cs = some o ∧
      o.token ∈ tokens ∧ o.left ++ o.token ++ o.right = cs := by
  obtain ⟨⟨tokens, last⟩, level, found⟩ := List.exists_of_findSome?_eq_some h
  have occurs : o ∈ Text.occurrences tokens cs := by
    simp only [Text.findToken?] at found
    split at found
    · exact List.mem_of_getLast? found
    · exact List.mem_of_head? found
  exact ⟨tokens, last, level, found, Text.text_of_mem_occurrencesFrom occurs⟩

/-- Behind a minus sign that a text is cut at, no minus sign follows, and behind a slash no star. -/
theorem lead?_ne_of_splitAtOperator? {cs : List Char} {o : Text.Occurrence}
    (h : splitAtOperator? cs = some o) :
    (o.token = ['-'] → Text.lead? o.right ≠ some '-') ∧
      (o.token = ['/'] → Text.lead? o.right ≠ some '*') := by
  obtain ⟨tokens, last, level, found, mem, _⟩ := level_of_splitAtOperator? h
  simp only [levels, List.mem_cons, Prod.mk.injEq, List.not_mem_nil, or_false] at level
  rcases level with ⟨rfl, rfl⟩ | ⟨rfl, rfl⟩ | ⟨rfl, rfl⟩
  · constructor <;>
      · intro token
        rw [token] at mem
        exact absurd mem (by decide)
  · refine ⟨fun _ => ?_, ?_⟩
    · exact Text.lead?_ne_of_getLast? (by decide) (by decide) (by decide) found
    · intro token
      rw [token] at mem
      exact absurd mem (by decide)
  · refine ⟨?_, fun _ => ?_⟩
    · intro token
      rw [token] at mem
      exact absurd mem (by decide)
    · exact Text.lead?_ne_of_getLast? (by decide) (by decide) (by decide) found

theorem token_of_ofToken? {token : List Char} {op : BinaryOp}
    (h : BinaryOp.ofToken? (String.ofList token) = some op) :
    (op = .sub → token = ['-']) ∧ (op = .div → token = ['/']) := by
  have text : ∀ s : String, String.ofList token = s → token = s.toList := by
    rintro s rfl
    exact (String.toList_ofList).symm
  unfold BinaryOp.ofToken? at h
  constructor
  · rintro rfl
    split at h <;> cases h
    exact text _ ‹_›
  · rintro rfl
    split at h <;> cases h
    exact text _ ‹_›

/-! ### Literals -/

theorem head?_signed (negative : Bool) {cs : List Char} (ne : cs ≠ [])
    (numeral : ∀ c ∈ cs, isNumeralChar c) :
    ∃ x, (Decimal.signText negative ++ cs).head? = some x ∧
      (x = '-' ∨ x = '*' → negative = true ∧ x = '-') := by
  cases negative with
  | true => exact ⟨'-', rfl, fun _ => ⟨rfl, rfl⟩⟩
  | false =>
    obtain ⟨c, r, rfl⟩ := List.exists_cons_of_ne_nil ne
    have plain := numeral_ne (numeral c List.mem_cons_self)
    exact ⟨c, rfl, fun mark => (mark.elim plain.1 plain.2.1).elim⟩

theorem head?_of_integer? {cs : List Char} {n : Int} (h : Decimal.integer? cs = some n)
    (negative : n < 0) : cs.head? = some '-' := by
  by_contra positive
  have sign : (cs.head? == some '-') = false := by simpa using positive
  unfold Decimal.integer? at h
  simp only [sign, Bool.false_eq_true, ↓reduceIte] at h
  split at h
  · cases h
    omega
  · cases h

theorem plus_of_pointed? {cs : List Char} {x : Float} (h : Decimal.pointed? cs = some x)
    (positive : cs.head? ≠ some '-') : Decimal.Plus x := by
  unfold Decimal.pointed? at h
  have sign : (cs.head? == some '-') = false := by simpa using positive
  simp only [sign, Bool.false_eq_true, ↓reduceIte] at h
  split at h
  · split at h
    · cases h
      exact Decimal.plus_ofScientific _ _ _
    · cases h
  · cases h

/-- The text of a literal begins with a sign only if what was read did, and never with a star. -/
theorem head?_literal {cs : List Char} {v : Literal} (h : literal? cs = some v) (d : Dialect) :
    ∃ x, (v.sql d).toList.head? = some x ∧ (x = '-' ∨ x = '*' → cs.head? = some x) := by
  unfold literal? at h
  split at h
  · next n read =>
    obtain ⟨i, fits, rfl⟩ := Option.map_eq_some_iff.1 h
    rw [Literal.sql, Decimal.toInt_signed? fits, toList_ofInt]
    obtain ⟨x, head, sign⟩ := head?_signed _ (digits_ne_nil n.natAbs) (isNumeralChar_digits _)
    refine ⟨x, head, fun mark => ?_⟩
    obtain ⟨negative, rfl⟩ := sign mark
    exact head?_of_integer? read (by simpa using negative)
  split at h
  · next x read =>
    cases h
    obtain ⟨negative, cs', text, ne, numeral, sign⟩ :=
      text_floatStyle (Decimal.Parts.ofBits x.toBits.toNat)
    rw [Literal.sql, Decimal.ofFloat, String.toList_ofList, text]
    obtain ⟨c, head, marked⟩ := head?_signed negative ne numeral
    refine ⟨c, head, fun mark => ?_⟩
    obtain ⟨rfl, rfl⟩ := marked mark
    -- Without a sign in the text the number has none, so that it is not written with one.
    by_contra positive
    have plus := Decimal.ofBits_of_plus (plus_of_pointed? read positive)
    rcases sign rfl with infinite | ⟨m, e, narrow, finite⟩
    · exact plus.1 infinite
    · exact plus.2 m e narrow finite
  · obtain ⟨s, _, rfl⟩ := Option.map_eq_some_iff.1 h
    refine ⟨Text.singleQuote, ?_, ?_⟩
    · rw [Literal.sql, Dialect.quoteString, String.toList_ofList]
      rfl
    · intro mark
      exact absurd mark (by decide)

/-! ### Calls -/

theorem isWordChar_name {text : List Char} {c : CallText} (h : CallText.parse? text = some c) :
    ∀ x ∈ c.name, Text.isWordChar x := by
  unfold CallText.parse? at h
  dsimp only at h
  split at h
  · cases h
  · split at h
    · obtain ⟨label, _, rfl⟩ := Option.map_eq_some_iff.1 h
      exact fun x hx => List.all_eq_true.1 List.all_takeWhile x hx
    · cases h
  · cases h

theorem isWordChar_spelling {e : Entry} (mem : e ∈ registry) (d : Dialect) :
    ∀ c ∈ (e.spelling d).name.toList, Text.isWordChar c := by
  have words : registry.all fun e => (e.spelling d).name.toList.all Text.isWordChar := by
    cases d <;> decide +kernel
  exact List.all_eq_true.1 (List.all_eq_true.1 words e mem)

theorem tame_apply (rule : ArgRule) {args : List Term} (h : Term.TameAll args) :
    Term.TameAll (rule.apply args) := by
  unfold ArgRule.apply
  split
  · exact h
  · exact ⟨h.2.1, h.1, h.2.2⟩
  · exact h
  · exact ⟨trivial, h⟩
  · exact ⟨trivial, trivial⟩

theorem tame_call {name : String} {args : List Term} (d : Dialect)
    (word : ∀ c ∈ name.toList, Text.isWordChar c) (tame : Term.TameAll args) :
    (call name args d).term.Tame := by
  unfold call
  split
  · next e found =>
    refine ⟨isWordChar_spelling (List.mem_of_find?_eq_some found) d, tame_apply _ ?_⟩
    split
    · trivial
    · exact tame
  · exact ⟨word, tame⟩

theorem head?_callSql (s : Scope) {function : String} (args : List Term) (texts : List String)
    (word : ∀ c ∈ function.toList, Text.isWordChar c) :
    ∃ x, (callSql s function args texts).toList.head? = some x ∧ x ≠ '-' ∧ x ≠ '*' := by
  unfold callSql
  split
  · next part _ _ date =>
    unfold extractSql
    split <;> simp only [String.toList_append]
    · exact ⟨'(', rfl, by decide⟩
    · exact ⟨'C', rfl, by decide⟩
    · exact ⟨'E', rfl, by decide⟩
  · rw [String.toList_append, String.toList_append, String.toList_append]
    cases eq : function.toList with
    | nil => exact ⟨'(', rfl, by decide⟩
    | cons c r =>
      have plain : isNumeralChar c := by
        rw [isNumeralChar, word c (by rw [eq]; exact List.mem_cons_self), Bool.true_or]
      exact ⟨c, rfl, (numeral_ne plain).1, (numeral_ne plain).2.1⟩

/-! ### Arguments -/

/-- Whether the text of a term begins with a sign or a star only if the text it was read from
does. -/
def Leads (text : List Char) (t : Term) : Prop :=
  ∀ s : Scope, ∃ x, (t.sql s).toList.head? = some x ∧
    (x = '-' ∨ x = '*' → Text.lead? text = some x)

theorem leads_column (text : List Char) (c : Column) : Leads text (.column c) := by
  intro s
  have quoted : ∀ rest : List Char, ∀ name,
      ((s.ident name).toList ++ rest).head? = some s.dialect.quoteChar := by
    intro rest name
    rw [Scope.ident, Dialect.quoteIdentifier, String.toList_ofList]
    rfl
  refine ⟨s.dialect.quoteChar, ?_, ?_⟩
  · rw [Term.sql, Column.sql]
    split
    · rw [String.toList_append, String.toList_append, List.append_assoc]
      exact quoted _ _
    · simpa only [List.append_nil] using quoted [] c.name
  · have quotes : ∀ d : Dialect, ¬ (d.quoteChar = '-' ∨ d.quoteChar = '*') := by
      intro d
      cases d <;> decide
    exact fun mark => absurd mark (quotes _)

theorem leads_binary {text : List Char} {o : Text.Occurrence} {left right : Term} (op : BinaryOp)
    (cut : splitAtOperator? (Text.trim text) = some o) (hl : Leads o.left left) :
    Leads text (.binary left op right) := by
  intro s
  obtain ⟨x, head, marked⟩ := hl s
  obtain ⟨_, _, _, _, _, whole⟩ := level_of_splitAtOperator? cut
  refine ⟨x, ?_, fun mark => ?_⟩
  · rw [Term.sql, String.toList_append, String.toList_append, List.append_assoc,
      List.head?_append, head]
    rfl
  · have first := Text.lead?_append (o.token ++ o.right) (marked mark)
    rw [← List.append_assoc, whole, Text.lead?_trim] at first
    exact first

/-- No operand makes a comment mark with the operator that it was cut off at. -/
theorem follows_of_leads {cs : List Char} {o : Text.Occurrence} {op : BinaryOp} {right : Term}
    (cut : splitAtOperator? cs = some o)
    (token : BinaryOp.ofToken? (String.ofList o.token) = some op) (hr : Leads o.right right) :
    right.Follows op := by
  -- The operator was cut at its last place, so the operand's own text does not begin with its mark.
  have behind := lead?_ne_of_splitAtOperator? cut
  have written := token_of_ofToken? token
  have apart : ∀ m : Char, (m = '-' ∨ m = '*') → Text.lead? o.right ≠ some m →
      ∀ s, ∃ c, (right.sql s).toList.head? = some c ∧ c ≠ m := by
    intro m mark ne s
    obtain ⟨c, head, marked⟩ := hr s
    refine ⟨c, head, ?_⟩
    rintro rfl
    exact ne (marked mark)
  cases op with
  | sub =>
    right
    intro s
    obtain ⟨c, head, ne⟩ := apart '-' (.inl rfl) (behind.1 (written.1 rfl)) s
    refine ⟨c, head, ?_⟩
    rw [show BinaryOp.sub.token.toList.getLast? = some '-' from rfl]
    simpa [opensComment] using ne
  | div =>
    right
    intro s
    obtain ⟨c, head, ne⟩ := apart '*' (.inr rfl) (behind.2 (written.2 rfl)) s
    refine ⟨c, head, ?_⟩
    rw [show BinaryOp.div.token.toList.getLast? = some '/' from rfl]
    simpa [opensComment] using ne
  | add | mul | eq | ne | lt | gt | le | ge => exact .inl (by decide)

variable {own : Table} {d : Dialect}

mutual

theorem tame_of_denotes : ∀ {text : List Char} {t : Term}, Denotes own d text t →
    t.Tame ∧ Leads text t
  | text, _, .star star => by
    refine ⟨trivial, fun s => ⟨'*', ?_, fun _ => ?_⟩⟩
    · rw [Term.sql]
      rfl
    · rw [← Text.lead?_trim, star]
      rfl
  | text, _, .literal read => by
    refine ⟨trivial, fun s => ?_⟩
    obtain ⟨x, head, mark⟩ := head?_literal read s.dialect
    refine ⟨x, head, fun hx => ?_⟩
    rw [← Text.head?_trim]
    exact mark hx
  | text, _, .call read made => by
    have tame := tame_of_denotesCall made (isWordChar_name (Option.eq_some_of_filter_eq_some read))
    refine ⟨tame, fun s => ?_⟩
    obtain ⟨x, head, ne⟩ := head?_callSql s _ (Term.sqlOfList s _) tame.1
    exact ⟨x, head, fun mark => (mark.elim ne.1 ne.2).elim⟩
  | text, _, .binary cut token hl hr => by
    obtain ⟨tameLeft, leadsLeft⟩ := tame_of_denotes hl
    obtain ⟨tameRight, leadsRight⟩ := tame_of_denotes hr
    exact ⟨⟨tameLeft, tameRight, follows_of_leads cut token leadsRight⟩,
      leads_binary _ cut leadsLeft⟩
  | text, _, .column read => by
    obtain ⟨c, _, resolved⟩ := Option.bind_eq_some_iff.1 read
    obtain ⟨column, _, rfl⟩ := Option.map_eq_some_iff.1 resolved
    exact ⟨trivial, leads_column text column⟩

theorem tameAll_of_denotesAll : ∀ {texts : List (List Char)} {ts : List Term},
    DenotesAll own d texts ts → Term.TameAll ts
  | _, _, .nil => trivial
  | _, _, .cons first rest => ⟨(tame_of_denotes first).1, tameAll_of_denotesAll rest⟩

theorem tame_of_denotesCall : ∀ {name : List Char} {args : List (List Char)} {f : FunctionCall},
    DenotesCall own d name args f → (∀ c ∈ name, Text.isWordChar c) → f.term.Tame
  | _, _, _, .extract _ _ _ date, _ => by
    refine ⟨?_, trivial, (tame_of_denotes date).1, trivial⟩
    have word : "EXTRACT".toList.all Text.isWordChar := by decide
    exact List.all_eq_true.1 word
  | _, _, _, .plain _ each, word => tame_call d (by simpa using word) (tameAll_of_denotesAll each)

end

theorem tame_of_parseCall {text : String} {f : FunctionCall} (h : parseCall own d text = .ok f) :
    f.term.Tame := by
  unfold parseCall at h
  dsimp only at h
  split at h
  · next call parsed =>
    cases h
    obtain ⟨syntactic, read, parsed⟩ := Option.bind_eq_some_iff.1 parsed
    obtain ⟨call, made, eq⟩ := Option.bind_eq_some_iff.1 parsed
    have tame := tame_of_denotesCall (denotesCall_of_callOf made) (isWordChar_name read)
    cases eq
    exact tame
  · cases h

end ScopedQuery.Function
