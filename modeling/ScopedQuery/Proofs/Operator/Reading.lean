import ScopedQuery.Proofs.Clause.Listing
import ScopedQuery.Proofs.Function.Rereading
import ScopedQuery.Proofs.Operator.Precedence

set_option autoImplicit false

namespace ScopedQuery

namespace Decimal

variable {cs : List Char} (unsigned : cs.head? ≠ some '-')

include unsigned

theorem integer?_eq_none (other : ∃ c ∈ cs, c.isDigit = false) : integer? cs = none := by
  obtain ⟨c, mem, digit⟩ := other
  have plain : (cs.head? == some '-') = false := beq_eq_false_iff_ne.2 unsigned
  have some : cs.all Char.isDigit = false := List.all_eq_false.2 ⟨c, mem, by simp [digit]⟩
  simp [integer?, plain, some]

theorem pointed?_eq_none (other : ∃ c ∈ cs, c.isDigit = false ∧ c ≠ '.') : pointed? cs = none := by
  obtain ⟨c, mem, digit, point⟩ := other
  have plain : (cs.head? == some '-') = false := beq_eq_false_iff_ne.2 unsigned
  simp only [pointed?, plain, Bool.false_eq_true, if_false]
  split
  · next fraction behind =>
    rw [if_neg]
    rw [Bool.and_eq_true, List.all_eq_true]
    rintro ⟨digits, _⟩
    rw [← List.takeWhile_append_dropWhile (p := Char.isDigit) (l := cs), behind, List.mem_append,
      List.mem_cons] at mem
    rcases mem with mem | rfl | mem
    · have whole := List.all_eq_true.1 List.all_takeWhile c mem
      rw [digit] at whole
      cases whole
    · exact point rfl
    · have back := digits c mem
      rw [digit] at back
      cases back
  · rfl

end Decimal

namespace Function

open Sql Text Operator

/-! ### Operands -/

/-- An operand of an expression as it is written: a column, which is no number, a whole number of 64
bits without a sign, a text, or a call of a registered function. -/
inductive Operand where
  | column (written : Clause.ColumnText) (text : List Char) (spelled : written.SpelledBy text)
    (named : ∃ c ∈ text, c.isDigit = false ∧ c ≠ '.')
  | number (digits : List Char) (ne : digits ≠ []) (digit : ∀ c ∈ digits, c.isDigit)
    (fits : Decimal.natOfDigits digits < Decimal.signedLimit)
  | quoted (value : List Char)
  | call (name inside : List Char) (word : Clause.IsWord name)
    (recognized : isRecognized (String.ofList name)) (balanced : Balanced inside)

namespace Operand

def chars : Operand → List Char
  | column _ text _ _ => text
  | number digits _ _ _ => digits
  | quoted value => singleQuote :: (doubling singleQuote value ++ [singleQuote])
  | call name inside _ _ _ => name ++ '(' :: (inside ++ [')'])

def term? (own : Table) (d : Dialect) : Operand → Option Term
  | column written _ _ _ => (written.resolve? own).map .column
  | number digits _ _ _ => some (.literal (.int (Int64.ofNat (Decimal.natOfDigits digits))))
  | quoted value => some (.text (String.ofList value))
  | call name inside _ _ _ =>
    (callOf own d name (CallText.arguments inside)).map FunctionCall.term

end Operand

section Columns

variable {own : Table} {text : List Char} {written : Clause.ColumnText}

theorem lead_of_spelledBy (h : written.SpelledBy text) :
    ∃ c r, text = c :: r ∧ (isWordChar c || Clause.isNameQuote c) := by
  have begins {inside : Char → Bool} {name front : List Char}
      (spells : Clause.Spells inside name front) :
      ∃ c r, front = c :: r ∧ (isWordChar c || Clause.isNameQuote c) := by
    cases spells with
    | bare ne word =>
      obtain ⟨c, r, rfl⟩ := List.exists_cons_of_ne_nil ne
      exact ⟨c, r, rfl, by simp [word c List.mem_cons_self]⟩
    | quoted quote => exact ⟨_, _, rfl, by simp [quote]⟩
  cases h with
  | bare column => exact begins column
  | qualified table column =>
    obtain ⟨c, r, rfl, lead⟩ := begins table
    exact ⟨c, _, rfl, lead⟩

theorem shaped_column (h : written.SpelledBy text) : Shaped 0 text := by
  have separate := h.uncut Clause.not_isComma_of_isNameChar
  have free : Uncut isOperatorChar text := h.uncut fun _ => not_isOperatorChar (by decide)
  obtain ⟨c, r, eq, lead⟩ := lead_of_spelledBy h
  refine .of_free separate.balanced separate.avoids ⟨c, r, eq, ?_⟩ h.solid.last
    (free_of_avoids free.avoids)
  rcases Bool.or_eq_true_iff.1 lead with word | quote
  · exact isLead_of_isWordChar word
  · refine isLead_of_isQuote ?_
    rcases Clause.isNameQuote_iff.1 quote with rfl | rfl <;> decide

theorem literal?_column (h : written.SpelledBy text)
    (named : ∃ c ∈ text, c.isDigit = false ∧ c ≠ '.') : literal? text = none := by
  obtain ⟨c, r, eq, lead⟩ := lead_of_spelledBy h
  have unsigned : text.head? ≠ some '-' := by
    rw [eq]
    rintro ⟨⟩
    exact absurd lead (by decide)
  have unquoted : quotedInside? text = none := by
    refine Option.eq_none_iff_forall_ne_some.2 fun inside quoted => ?_
    rw [eq_of_quotedInside? quoted] at eq
    obtain ⟨rfl, _⟩ := List.cons.inj eq
    exact absurd lead (by decide)
  obtain ⟨x, mem, digit, point⟩ := named
  rw [literal?, Decimal.integer?_eq_none unsigned ⟨x, mem, digit⟩,
    Decimal.pointed?_eq_none unsigned ⟨x, mem, digit, point⟩, unquoted]
  rfl

theorem nestedCall?_column (h : written.SpelledBy text) : nestedCall? text = none := by
  refine Option.eq_none_iff_forall_ne_some.2 fun call read => ?_
  obtain ⟨inside, rest, whole, word, _⟩ := CallText.parse?_eq_some.1 (nestedCall?_eq_some.1 read).1
  have nothing : ∀ c ∈ ([] : List Char).head?, isWordChar c = false ∧ c ≠ '.' := nofun
  have column := Clause.ColumnText.read_append h nothing
  rw [List.append_nil, ← h.solid.trim_eq, whole,
    Clause.ColumnText.read_word word.1 word.2 (by rintro _ ⟨⟩; decide)] at column
  cases column

theorem splitAtOperator?_column (h : written.SpelledBy text) : splitAtOperator? text = none := by
  have free : Uncut isOperatorChar text := h.uncut fun _ => not_isOperatorChar (by decide)
  obtain ⟨c, r, rfl, lead⟩ := (shaped_column h).lead
  exact splitAtOperator?_eq_none (not_isBlank_of_isLead lead) (begins_of_isLead lead)
    (free_of_avoids free.avoids)

theorem column?_eq_none {o : Occurrence} (cut : splitAtOperator? text = some o) :
    column? own text = none := by
  refine Option.bind_eq_none_iff.2 fun written parsed => ?_
  rw [splitAtOperator?_column (Clause.ColumnText.parse?_eq_some.1 parsed)] at cut
  cases cut

end Columns

section Operands

variable {own : Table} {d : Dialect} {text : List Char}

theorem Operand.shaped (a : Operand) : Shaped 0 a.chars := by
  cases a with
  | column written text spelled named => exact shaped_column spelled
  | number digits ne digit fits =>
    have word : Clause.IsWord digits :=
      ⟨ne, fun c mem => by simp [isWordChar, Char.isAlphanum, digit c mem]⟩
    exact shaped_word false word
  | quoted value => exact shaped_quoted (q := singleQuote) (by decide) value
  | call name inside word recognized balanced => exact shaped_call word balanced

theorem Operand.head (a : Operand) : ∀ c ∈ a.chars.head?, isOperatorChar c = false := by
  have word {name rest : List Char} (word : Clause.IsWord name) :
      ∀ c ∈ (name ++ rest).head?, isOperatorChar c = false := by
    obtain ⟨x, r, rfl⟩ := List.exists_cons_of_ne_nil word.1
    rintro _ ⟨⟩
    exact not_isOperatorChar (by decide) (word.2 x List.mem_cons_self)
  cases a with
  | column written text spelled named =>
    obtain ⟨c, r, rfl, lead⟩ := lead_of_spelledBy spelled
    rintro _ ⟨⟩
    exact not_isOperatorChar (p := fun c => isWordChar c || Clause.isNameQuote c) (by decide) lead
  | number digits ne digit fits =>
    exact fun c head => not_isOperatorChar (by decide) (digit c (List.mem_of_mem_head? head))
  | quoted value =>
    rintro _ ⟨⟩
    decide
  | call name inside isWord recognized balanced => exact word isWord

theorem Operand.argument_eq (a : Operand) (trimmed : trim text = a.chars) :
    argument own d text = a.term? own d := by
  have star : a.chars ≠ ['*'] := by
    intro same
    have head := a.head '*' (by rw [same]; rfl)
    cases head
  rw [Function.argument_eq trimmed a.shaped.ne_nil star]
  cases a with
  | column written text spelled named =>
    rw [chars, literal?_column spelled named, nestedCall?_column spelled,
      splitAtOperator?_column spelled, column?, Clause.ColumnText.parse?_eq_some.2 spelled]
    rfl
  | number digits ne digit fits =>
    have value : Decimal.signed? (Decimal.natOfDigits digits : Int) =
        some (Int64.ofInt (Decimal.natOfDigits digits)) := by
      refine if_pos ⟨?_, ?_⟩ <;> omega
    rw [chars, literal?, Decimal.integer?_positive ne digit]
    dsimp only
    rw [value]
    rfl
  | quoted value =>
    rw [chars, literal?_quoted]
    rfl
  | call name inside word recognized balanced =>
    have read : nestedCall? (name ++ '(' :: (inside ++ [')'])) =
        some ⟨name, CallText.arguments inside, none⟩ :=
      nestedCall?_eq_some.2 ⟨parse?_call word balanced, rfl, recognized⟩
    rw [chars, literal?_call word, read]
    rfl

end Operands

instance : Ranked Joint where
  rank j := j.op.rank
  rank_pos j := by cases j.op <;> decide

/-! ### Expressions -/

abbrev Expression := Tree Operand Joint

def comparisons (links : List (Joint × Operand)) : Nat := links.countP fun l => l.1.op.rank == 3

def chain (first : Operand) (links : List (Joint × Operand)) : List Char :=
  first.chars ++ links.flatMap fun l => l.1.chars ++ l.2.chars

namespace Expression

variable {own : Table} {d : Dialect} {text : List Char} {t : Expression}

def chars : Expression → List Char
  | .leaf a => a.chars
  | .join left j right => chars left ++ (j.chars ++ chars right)

def term? (own : Table) (d : Dialect) : Expression → Option Term
  | .leaf a => a.term? own d
  | .join left j right => do
    let l ← term? own d left
    let r ← term? own d right
    pure (.binary l j.op r)

theorem chars_eq (t : Expression) : chars t = chain t.first t.links := by
  induction t with
  | leaf a => exact (List.append_nil _).symm
  | join left j right ihl ihr =>
    rw [chars, ihl, ihr]
    simp [chain, Tree.first, Tree.links]

theorem head (t : Expression) : ∀ c ∈ (chars t).head?, isOperatorChar c = false := by
  have first := t.first.head
  obtain ⟨c, r, eq, _⟩ := t.first.shaped.lead
  rw [chars_eq, chain, eq]
  rw [eq] at first
  exact first

theorem apart {rank : Nat} (t : Expression) : rank ≠ 3 → ∀ k, rank ≤ k →
    ∀ c ∈ (chars t).head?, begins (operators k) c = false :=
  fun _ k _ c first => isOperatorChar_of_begins k (head t c first)

theorem shaped (standard : t.Standard) : Shaped t.rank (chars t) := by
  induction t with
  | leaf a => exact a.shaped
  | join left j right ihl ihr =>
    obtain ⟨hl, hr, tighter, last⟩ := standard
    exact (ihl hl).joint (ihr hr) tighter (fun _ => last) (apart right)

theorem rank_ne_three (none : comparisons t.links = 0) : t.rank ≠ 3 := by
  cases t with
  | leaf a => nofun
  | join left j right =>
    have mem : (j, right.first) ∈ (Tree.join left j right).links :=
      List.mem_append_right _ List.mem_cons_self
    have other : ¬ j.op.rank = 3 := by simpa using List.countP_eq_zero.1 none _ mem
    exact other

/-- The text of a standard tree is read as what the tree denotes, by induction on the tree. -/
theorem argument_eq (standard : t.Standard) (single : comparisons t.links ≤ 1)
    (trimmed : trim text = chars t) : argument own d text = term? own d t := by
  induction t generalizing text with
  | leaf a => exact a.argument_eq trimmed
  | join left j right ihl ihr =>
    have whole := shaped standard
    obtain ⟨hl, hr, tighter, last⟩ := standard
    -- The comparisons of the whole are those of its parts, and its own operator if it is one.
    simp only [comparisons, Tree.links, List.countP_append, List.countP_cons] at single
    have few : comparisons left.links ≤ 1 ∧ comparisons right.links ≤ 1 := by
      constructor <;> simp only [comparisons] <;> omega
    have first : j.op.rank = 3 → left.rank ≠ 3 := by
      intro comparison
      refine rank_ne_three ?_
      simp only [comparison, beq_self_eq_true, if_true] at single
      simp only [comparisons]
      omega
    have cut := splitAtOperator?_joint (shaped hl) (shaped hr) tighter first (fun _ => last)
      (apart right)
    have star : chars (.join left j right) ≠ ['*'] := by
      intro same
      have operator := head (.join left j right) '*' (by rw [same]; rfl)
      cases operator
    obtain ⟨noLiteral, noCall⟩ := whole.none_of_splitAtOperator? cut
    have front : argument own d (chars left ++ j.before) = term? own d left := by
      refine ihl hl few.1 ?_
      exact (shaped hl).solid.trim_around blank_nil j.blank_before
    have back : argument own d (j.after ++ chars right) = term? own d right := by
      refine ihr hr few.2 ?_
      have inner := (shaped hr).solid.trim_around j.blank_after blank_nil
      rwa [List.append_nil] at inner
    rw [Function.argument_eq trimmed whole.ne_nil star, noLiteral, noCall, chars, cut]
    dsimp only [Option.elim_none, Option.elim_some]
    rw [j.spells, front, back, column?_eq_none cut, term?]
    cases term? own d left <;> cases term? own d right <;> rfl

end Expression

/-- A sequence of operands and operators, with at most one comparison among them and blanks wherever
it has any, is read as the term of the one tree that the standard grammar gives it, and it is
refused only where an operand denotes nothing. -/
theorem argument_chain (own : Table) (d : Dialect) (first : Operand)
    (links : List (Joint × Operand)) {front back : List Char}
    (blank : (∀ c ∈ front, isBlank c) ∧ ∀ c ∈ back, isBlank c) (single : comparisons links ≤ 1) :
    ∃ t : Expression, (∀ u : Expression, u.Standard ∧ u.first = first ∧ u.links = links ↔ u = t) ∧
      argument own d (front ++ (chain first links ++ back)) = t.term? own d := by
  obtain ⟨t, ⟨standard, rfl, rfl⟩, only⟩ := Tree.existsUnique_standard first links
  refine ⟨t, fun u => ⟨only u, ?_⟩, ?_⟩
  · rintro rfl
    exact ⟨standard, rfl, rfl⟩
  · refine Expression.argument_eq standard single ?_
    rw [← Expression.chars_eq]
    exact (Expression.shaped standard).solid.trim_around blank.1 blank.2

def Joint.spaced (op : BinaryOp) (token : List Char)
    (spells : BinaryOp.ofToken? (String.ofList token) = some op) : Joint :=
  ⟨op, token, [' '], [' '], spells, blank_space, blank_space⟩

theorem argument_chain_rest :
    let own : Table := ⟨"tabOrder"⟩
    argument own .postgres " qty - 1 - \"rate\" * 2 =< 10".toList = some
      (.binary (.binary (.binary (own.column "qty").term .sub (.literal (.int 1))) .sub
        (.binary (own.column "rate").term .mul (.literal (.int 2)))) .le (.literal (.int 10))) := by
  intro own
  have word : Clause.IsWord "qty".toList ∧ Clause.IsWord "rate".toList := by decide
  let qty : Operand := .column _ "qty".toList (.bare (.bare word.1.1 word.1.2))
    ⟨'q', by decide, by decide, by decide⟩
  let rate : Operand := .column _ "\"rate\"".toList
    (.bare (.quoted (rfl : Clause.isNameQuote doubleQuote) word.2.1 word.2.2))
    ⟨'r', by decide, by decide, by decide⟩
  let number (n : Nat) (fits : Decimal.natOfDigits (Decimal.digits n) < Decimal.signedLimit) :
      Operand := .number (Decimal.digits n) (digits_ne_nil n) Decimal.isDigit_of_mem_digits fits
  let difference : Expression :=
    .join (.leaf qty) (.spaced .sub ['-'] rfl) (.leaf (number 1 (by decide)))
  let product : Expression :=
    .join (.leaf rate) (.spaced .mul ['*'] rfl) (.leaf (number 2 (by decide)))
  let tree : Expression := .join (.join difference (.spaced .sub ['-'] rfl) product)
    (.spaced .le ['=', '<'] rfl) (.leaf (number 10 (by decide)))
  have standard : tree.Standard := by
    refine ⟨⟨⟨trivial, trivial, ?_, ?_⟩, ⟨trivial, trivial, ?_, ?_⟩, ?_, ?_⟩, trivial, ?_, ?_⟩ <;>
      exact Nat.le_of_ble_eq_true rfl
  obtain ⟨t, only, read⟩ := argument_chain own .postgres qty tree.links
    ⟨blank_space, blank_nil⟩ (Nat.le_of_ble_eq_true rfl)
  have text : [' '] ++ (chain qty tree.links ++ []) = " qty - 1 - \"rate\" * 2 =< 10".toList := rfl
  rw [text, ← (only tree).1 ⟨standard, rfl, rfl⟩] at read
  exact read

end Function

end ScopedQuery
