import Mathlib.Data.List.TakeWhile
import ScopedQuery.Proofs.Clause.Labelling
import ScopedQuery.Proofs.Lexical.Number
import ScopedQuery.Proofs.Lexical.Quoting

set_option autoImplicit false

/-!
The lexemes of SQL text. A text is cut at any place where neither a word nor a number nor a
quotation goes on: the lexemes of the whole are then those of the two parts, one after the other.
-/

namespace ScopedQuery.Sql

inductive Lexeme where
  | name (cs : List Char)
  | text (cs : List Char)
  | word (cs : List Char)
  | number (cs : List Char)
  | sign (c : Char)
  deriving DecidableEq

namespace Dialect

/-- The lexeme that a character begins, and how many of the characters behind it belong to it. A
mark that opens a quotation without an end stands for itself. -/
def lexeme (d : Dialect) (c : Char) (r : List Char) : Lexeme × Nat :=
  if d.opensQuotation c then
    match d.quotation? c r with
    | some (v, rest) => (if c == d.quoteChar then .name v else .text v, r.length - rest.length)
    | none => (.sign c, 0)
  else if c.isDigit then
    (.number (c :: r.takeWhile isNumeralChar), (r.takeWhile isNumeralChar).length)
  else if Text.isWordChar c then
    (.word (c :: r.takeWhile Text.isWordChar), (r.takeWhile Text.isWordChar).length)
  else (.sign c, 0)

def lexemesFrom (d : Dialect) : Nat → List Char → List Lexeme
  | _, [] => []
  | skip + 1, _ :: r => d.lexemesFrom skip r
  | 0, c :: r =>
    if Text.isBlank c then d.lexemesFrom 0 r
    else (d.lexeme c r).1 :: d.lexemesFrom (d.lexeme c r).2 r

def lexemes (d : Dialect) (cs : List Char) : List Lexeme := d.lexemesFrom 0 cs

def closes (d : Dialect) : Lexeme → Bool
  | .sign c => !d.opensQuotation c
  | _ => true

/-- Whether every quotation in a text ends. -/
def Closed (d : Dialect) (cs : List Char) : Prop := (d.lexemes cs).all d.closes

/-- Whether no lexeme goes on from one text to another. -/
def Apart (d : Dialect) (a b : List Char) : Prop :=
  ∀ x ∈ a.getLast?, ∀ y ∈ b.head?,
    (isNumeralChar x → isNumeralChar y = false) ∧ (d.opensQuotation x → y ≠ x)

variable {d : Dialect} {a b cs r rest v : List Char} {c mark : Char}

theorem Apart.tail (h : d.Apart (c :: a) b) : d.Apart a b := by
  intro x last
  refine h x ?_
  rw [List.getLast?_cons, last]
  rfl

theorem Apart.takeWhile_append {p : Char → Bool} (h : d.Apart (c :: a) b) (first : p c)
    (numeral : ∀ x, p x → isNumeralChar x) : (a ++ b).takeWhile p = a.takeWhile p := by
  rw [List.takeWhile_append]
  split
  · next whole =>
    have within : ∀ x ∈ c :: a, p x := by
      rw [List.forall_mem_cons, ← (List.takeWhile_prefix p).eq_of_length whole]
      exact ⟨first, fun x mem => List.all_eq_true.1 List.all_takeWhile x mem⟩
    have none : b.takeWhile p = [] := by
      cases b with
      | nil => rfl
      | cons y b =>
        have last := within _ (List.getLast_mem (List.cons_ne_nil c a))
        have stop := (h _ (List.getLast?_eq_some_getLast _) y rfl).1 (numeral _ last)
        refine List.takeWhile_cons_of_neg fun more => ?_
        rw [numeral y more] at stop
        cases stop
    rw [none, List.append_nil, (List.takeWhile_prefix p).eq_of_length whole]
  · rfl

/-- A quotation that ends in a text is the same whatever follows, unless its closing mark is at the
end of the text and follows once more. -/
theorem quotation?_append (h : d.quotation? mark a = some (v, rest))
    (apart : a.getLast? = some mark → b.head? ≠ some mark) :
    d.quotation? mark (a ++ b) = some (v, rest ++ b) := by
  have behind {x y : Char} {r w : List Char} {rest : List Char}
      (found : d.quotation? mark r = some (w, rest))
      (apart : (x :: y :: r).getLast? = some mark → b.head? ≠ some mark) :
      r.getLast? = some mark → b.head? ≠ some mark := by
    intro last
    refine apart ?_
    rw [List.getLast?_cons_cons, List.getLast?_cons, last]
    rfl
  -- What follows only matters for a mark at the end, which could be doubled by it.
  fun_induction quotation? d mark a generalizing v with
  | case1 => cases h
  | case2 c close =>
    cases h
    obtain rfl := beq_iff_eq.1 close
    exact quotation?_close (apart rfl)
  | case3 => cases h
  | case4 c e r first second ih =>
    obtain ⟨⟨w, _⟩, found, eq⟩ := Option.map_eq_some_iff.1 h
    cases eq
    obtain rfl := beq_iff_eq.1 first
    obtain rfl := beq_iff_eq.1 second
    rw [List.cons_append, List.cons_append, quotation?_mark, ih found (behind found apart)]
    rfl
  | case5 c e r first second =>
    cases h
    obtain rfl := beq_iff_eq.1 first
    exact quotation?_close (by simpa using second)
  | case6 c e r first escapes ih =>
    obtain ⟨⟨w, _⟩, found, eq⟩ := Option.map_eq_some_iff.1 h
    cases eq
    rw [List.cons_append, List.cons_append, quotation?_escape escapes,
      ih found (behind found apart)]
    rfl
  | case7 c e r first plain ih =>
    obtain ⟨⟨w, _⟩, found, eq⟩ := Option.map_eq_some_iff.1 h
    cases eq
    rw [List.cons_append, quotation?_plain (by simpa using first) (by simpa using plain),
      ih found fun last => apart (by rw [List.getLast?_cons_cons, last])]
    rfl

theorem lexeme_append (apart : d.Apart (c :: a) b) (closed : d.closes (d.lexeme c a).1) :
    d.lexeme c (a ++ b) = d.lexeme c a ∧ (d.lexeme c a).2 ≤ a.length := by
  have prefix_le (p : Char → Bool) : (a.takeWhile p).length ≤ a.length :=
    (List.takeWhile_prefix p).length_le
  unfold lexeme at closed ⊢
  split
  · next opens =>
    rw [if_pos opens] at closed
    cases found : d.quotation? c a with
    | none =>
      rw [found] at closed
      simp [closes, opens] at closed
    | some p =>
      obtain ⟨v, rest⟩ := p
      have once : a.getLast? = some c → b.head? ≠ some c := by
        intro last head
        refine (apart c ?_ c head).2 opens rfl
        rw [List.getLast?_cons, last]
        rfl
      have weight := weight_of_quotation? found
      rw [quotation?_append found once]
      refine ⟨Prod.ext rfl ?_, Nat.sub_le _ _⟩
      simp only [List.length_append]
      omega
  split
  · next digit =>
    rw [apart.takeWhile_append (isNumeralChar_of_isDigit digit) fun _ => id]
    exact ⟨rfl, prefix_le _⟩
  split
  · next word =>
    rw [apart.takeWhile_append word fun x h => by rw [isNumeralChar, h, Bool.true_or]]
    exact ⟨rfl, prefix_le _⟩
  · exact ⟨rfl, Nat.zero_le _⟩

theorem lexemesFrom_append {skip : Nat} (short : skip ≤ a.length)
    (closed : (d.lexemesFrom skip a).all d.closes) (apart : d.Apart a b) :
    d.lexemesFrom skip (a ++ b) = d.lexemesFrom skip a ++ d.lexemes b := by
  -- The characters that are skipped belong to a lexeme that ends in the first text.
  induction a generalizing skip with
  | nil =>
    obtain rfl := Nat.le_zero.1 short
    rfl
  | cons c a ih =>
    rw [List.cons_append]
    cases skip with
    | succ skip => exact ih (Nat.le_of_succ_le_succ short) closed apart.tail
    | zero =>
      rw [lexemesFrom, lexemesFrom]
      rw [lexemesFrom] at closed
      split
      · next blank =>
        rw [if_pos blank] at closed
        exact ih (Nat.zero_le _) closed apart.tail
      · next solid =>
        rw [if_neg solid, List.all_cons, Bool.and_eq_true] at closed
        obtain ⟨same, within⟩ := lexeme_append apart closed.1
        rw [same, ih within closed.2 apart.tail, List.cons_append]

theorem Closed.lexemes_append (closed : d.Closed a) (apart : d.Apart a b) :
    d.lexemes (a ++ b) = d.lexemes a ++ d.lexemes b :=
  lexemesFrom_append (Nat.zero_le _) closed apart

theorem Closed.append (ha : d.Closed a) (hb : d.Closed b) (apart : d.Apart a b) :
    d.Closed (a ++ b) := by
  unfold Closed
  rw [ha.lexemes_append apart, List.all_append, Bool.and_eq_true]
  exact ⟨ha, hb⟩

theorem lexemesFrom_length (cs : List Char) : d.lexemesFrom cs.length cs = [] := by
  induction cs with
  | nil => rfl
  | cons c cs ih => exact ih

theorem lexemes_cons_of_lexeme {t : Lexeme} (solid : Text.isBlank c = false)
    (h : d.lexeme c r = (t, r.length)) : d.lexemes (c :: r) = [t] := by
  rw [lexemes, lexemesFrom, solid, h]
  exact congrArg (t :: ·) (lexemesFrom_length r)

theorem lexemes_quotation (opens : d.opensQuotation mark)
    (read : d.quotation? mark r = some (v, [])) :
    d.lexemes (mark :: r) = [if mark == d.quoteChar then .name v else .text v] := by
  have solid : Text.isBlank mark = false := by
    rw [opensQuotation, Bool.or_eq_true, beq_iff_eq, beq_iff_eq] at opens
    rcases opens with rfl | rfl
    · decide
    · cases d <;> decide
  refine lexemes_cons_of_lexeme solid ?_
  rw [lexeme, if_pos opens, read]
  rfl

theorem lexemes_quoteIdentifier (d : Dialect) (name : String) :
    d.lexemes (d.quoteIdentifier name).toList = [.name name.toList] := by
  have read := (d.identifier?_quoteIdentifier_iff name []).2 nofun
  rw [List.append_nil, quoteIdentifier, String.toList_ofList, List.cons_append, identifier?,
    if_pos (beq_self_eq_true _)] at read
  rw [quoteIdentifier, String.toList_ofList, List.cons_append,
    lexemes_quotation (by simp [opensQuotation]) read, if_pos (beq_self_eq_true _)]

theorem lexemes_quoteString (d : Dialect) (value : String) :
    d.lexemes (d.quoteString value).toList = [.text value.toList] := by
  have read := (d.literal?_quoteString_iff value []).2 nofun
  have other : (Text.singleQuote == d.quoteChar) = false := by cases d <;> decide
  rw [List.append_nil, quoteString, String.toList_ofList, List.cons_append, literal?,
    if_pos (beq_self_eq_true _)] at read
  rw [quoteString, String.toList_ofList, List.cons_append,
    lexemes_quotation (by simp [opensQuotation]) read, other, if_neg Bool.false_ne_true]

theorem opensQuotation_of_isNumeralChar (d : Dialect) (h : isNumeralChar c) :
    d.opensQuotation c = false :=
  opensQuotation_of_isCodeChar d (isCodeChar_of_isNumeralChar h)

theorem isBlank_of_isNumeralChar (h : isNumeralChar c) : Text.isBlank c = false := by
  rw [isNumeralChar, Bool.or_eq_true, beq_iff_eq] at h
  rcases h with word | rfl
  · exact Clause.not_isBlank_of_isWordChar word
  · decide

theorem lexemes_number (d : Dialect) (digit : c.isDigit) (numeral : ∀ x ∈ r, isNumeralChar x) :
    d.lexemes (c :: r) = [.number (c :: r)] := by
  have first := isNumeralChar_of_isDigit digit
  refine lexemes_cons_of_lexeme (isBlank_of_isNumeralChar first) ?_
  rw [lexeme, opensQuotation_of_isNumeralChar d first, if_neg Bool.false_ne_true, if_pos digit,
    List.takeWhile_eq_self_iff.2 numeral]

theorem lexemes_word (d : Dialect) (letter : c.isDigit = false)
    (word : ∀ x ∈ c :: r, Text.isWordChar x) : d.lexemes (c :: r) = [.word (c :: r)] := by
  obtain ⟨first, others⟩ := List.forall_mem_cons.1 word
  have numeral : isNumeralChar c := by rw [isNumeralChar, first, Bool.true_or]
  refine lexemes_cons_of_lexeme (isBlank_of_isNumeralChar numeral) ?_
  rw [lexeme, opensQuotation_of_isNumeralChar d numeral, if_neg Bool.false_ne_true, letter,
    if_neg Bool.false_ne_true, if_pos first, List.takeWhile_eq_self_iff.2 others]

theorem lexemes_of_word (d : Dialect) (ne : cs ≠ []) (word : ∀ x ∈ cs, Text.isWordChar x) :
    d.lexemes cs = [.word cs] ∨ d.lexemes cs = [.number cs] := by
  obtain ⟨c, r, rfl⟩ := List.exists_cons_of_ne_nil ne
  by_cases digit : c.isDigit
  · refine .inr (d.lexemes_number digit fun x mem => ?_)
    rw [isNumeralChar, word x (List.mem_cons_of_mem c mem), Bool.true_or]
  · exact .inl (d.lexemes_word (by simpa using digit) word)

end Dialect

end ScopedQuery.Sql
