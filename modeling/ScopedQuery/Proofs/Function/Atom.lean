import ScopedQuery.Proofs.Clause.Spelling
import ScopedQuery.Proofs.Function.Level
import ScopedQuery.Proofs.Lexical.Number

set_option autoImplicit false

namespace ScopedQuery

open Sql Text

namespace Decimal

variable {cs : List Char}

theorem natOfDigits_digits (n : Nat) : natOfDigits (digits n) = n := Nat.ofDigitChars_ten_toDigits

theorem isDigit_of_mem_digits {n : Nat} : ∀ c ∈ digits n, c.isDigit := fun _ mem =>
  Nat.isDigit_of_mem_toDigits (by decide) (by decide) mem

section Digits

variable (ne : cs ≠ []) (digit : ∀ c ∈ cs, c.isDigit)

include ne digit

theorem isDigits_of_forall : (!cs.isEmpty && cs.all Char.isDigit) = true := by
  rw [Bool.and_eq_true, Bool.not_eq_true', List.isEmpty_eq_false_iff, List.all_eq_true]
  exact ⟨ne, digit⟩

theorem integer?_positive : integer? cs = some (natOfDigits cs : Int) := by
  have plain : (cs.head? == some '-') = false := by
    rw [beq_eq_false_iff_ne]
    intro minus
    exact absurd (digit _ (List.mem_of_head? minus)) (by decide)
  simp only [integer?, plain, Bool.false_eq_true, if_false, isDigits_of_forall ne digit, if_true]

theorem integer?_negative : integer? ('-' :: cs) = some (-(natOfDigits cs : Int)) := by
  have minus : (('-' :: cs).head? == some '-') = true := rfl
  simp only [integer?, minus, if_true, List.drop_succ_cons, List.drop_zero,
    isDigits_of_forall ne digit]

end Digits

theorem integer?_ofInt (n : Int) : integer? (ofInt n).toList = some n := by
  have positive := integer?_positive (digits_ne_nil n.natAbs) isDigit_of_mem_digits
  have negative := integer?_negative (digits_ne_nil n.natAbs) isDigit_of_mem_digits
  rw [natOfDigits_digits] at positive negative
  rw [toList_ofInt]
  by_cases sign : n < 0
  · rw [decide_eq_true sign]
    refine negative.trans (congrArg some ?_)
    omega
  · rw [decide_eq_false sign]
    refine positive.trans (congrArg some ?_)
    omega

/-- Behind the first character, a text with or without its sign is the same. -/
theorem mem_unsigned (negative : Bool) {c : Char} (mem : c ∈ cs.drop 1) :
    c ∈ if negative then cs.drop 1 else cs := by
  cases negative
  · exact List.mem_of_mem_drop mem
  · exact mem

theorem isDigit_of_integer? {n : Int} (h : integer? cs = some n) : ∀ c ∈ cs.drop 1, c.isDigit := by
  simp only [integer?] at h
  by_cases all : (if (cs.head? == some '-') = true then cs.drop 1 else cs).all Char.isDigit
  · exact fun c mem => List.all_eq_true.1 all c (mem_unsigned _ mem)
  · rw [Bool.eq_false_iff.2 all, Bool.and_false] at h
    cases h

theorem isNumeralChar_of_pointed? {x : Float} (h : pointed? cs = some x) :
    ∀ c ∈ cs.drop 1, isNumeralChar c := by
  have body : ∀ b : List Char, ∀ f, b.dropWhile Char.isDigit = '.' :: f → f.all Char.isDigit →
      ∀ c ∈ b, isNumeralChar c := by
    intro b f eq digit c mem
    rw [← List.takeWhile_append_dropWhile (p := Char.isDigit) (l := b), eq, List.mem_append,
      List.mem_cons] at mem
    rcases mem with mem | rfl | mem
    · exact isNumeralChar_of_isDigit (List.all_eq_true.1 List.all_takeWhile c mem)
    · rfl
    · exact isNumeralChar_of_isDigit (List.all_eq_true.1 digit c mem)
  simp only [pointed?] at h
  split at h
  · next f eq =>
    rw [Option.ite_none_right_eq_some, Bool.and_eq_true] at h
    exact fun c mem => body _ f eq h.1.1 c (mem_unsigned _ mem)
  · cases h

end Decimal

namespace Function

variable {cs r s : List Char} {c : Char} {d : Dialect} {own : Table} {sep : Char → Bool}

theorem undoubled?_doubling (s : List Char) : undoubled? (doubling singleQuote s) = some s := by
  induction s with
  | nil => rfl
  | cons c s ih =>
    rw [doubling_cons]
    split
    · next quote =>
      rw [beq_iff_eq.1 quote]
      change (undoubled? (doubling singleQuote s)).map _ = _
      rw [ih]
      rfl
    · next other =>
      have plain : c ≠ singleQuote := by simpa using other
      rw [List.singleton_append, undoubled?]
      · rw [if_neg other, ih]
        rfl
      · exact fun _ quote => absurd quote plain

theorem eq_doubling_of_undoubled? (h : undoubled? cs = some s) : cs = doubling singleQuote s := by
  induction cs using undoubled?.induct generalizing s with
  | case1 =>
    cases h
    rfl
  | case2 r ih =>
    obtain ⟨s, read, rfl⟩ := Option.map_eq_some_iff.1 h
    rw [doubling_cons, if_pos (beq_self_eq_true _), ← ih read]
    rfl
  | case3 c r apart quote =>
    rw [undoubled?.eq_3 c r apart, if_pos quote] at h
    cases h
  | case4 c r apart quote ih =>
    rw [undoubled?.eq_3 c r apart, if_neg quote] at h
    obtain ⟨s, read, rfl⟩ := Option.map_eq_some_iff.1 h
    rw [doubling_cons, if_neg quote, ← ih read]
    rfl

theorem quotedInside?_quoted (inside : List Char) :
    quotedInside? (singleQuote :: (inside ++ [singleQuote])) = some inside := by
  have reversed : (inside ++ [singleQuote]).reverse = singleQuote :: inside.reverse := by simp
  unfold quotedInside?
  simp only [singleQuote] at reversed ⊢
  rw [reversed]
  exact congrArg some (List.reverse_reverse inside)

theorem eq_of_quotedInside? {inside : List Char} (h : quotedInside? cs = some inside) :
    cs = singleQuote :: (inside ++ [singleQuote]) := by
  unfold quotedInside? at h
  split at h
  · next r =>
    split at h
    · next inside' reversed =>
      cases h
      rw [← List.reverse_cons, show singleQuote :: inside' = r.reverse from reversed.symm,
        List.reverse_reverse]
      rfl
    · cases h
  · cases h

theorem literal?_ofInt (n : Int64) :
    literal? (Decimal.ofInt n.toInt).toList = some (.int n) := by
  rw [literal?, Decimal.integer?_ofInt]
  exact congrArg (Option.map Literal.int) (Decimal.signed?_toInt n)

theorem literal?_quoted (s : List Char) :
    literal? (singleQuote :: (doubling singleQuote s ++ [singleQuote])) =
      some (.text (String.ofList s)) := by
  have whole : Decimal.integer? (singleQuote :: (doubling singleQuote s ++ [singleQuote])) = none :=
    rfl
  have fraction :
      Decimal.pointed? (singleQuote :: (doubling singleQuote s ++ [singleQuote])) = none := rfl
  rw [literal?, whole, fraction]
  simp only [quotedInside?_quoted, Option.bind_some, undoubled?_doubling, Option.map_some]

theorem not_isOperatorChar {p : Char → Bool}
    (apart : ['!', '=', '<', '>', '+', '-', '*', '/'].all fun x => !p x) (h : p c) :
    isOperatorChar c = false := by
  rw [Bool.eq_false_iff, isOperatorChar, ne_eq, List.contains_iff_mem]
  intro mem
  have other := List.all_eq_true.1 apart c mem
  simp [h] at other

theorem not_isMark {c : Char} (word : isWordChar c) : isMark c = false := by
  rw [Bool.eq_false_iff]
  intro mark
  simp only [isMark, isQuote, Bool.or_eq_true, beq_iff_eq] at mark
  rcases mark with (((rfl | rfl) | rfl) | rfl) | rfl <;> exact absurd word (by decide)

theorem free_of_literal? {v : Literal} (h : literal? cs = some v) : Free isOperatorChar cs := by
  have numeral : (∀ c ∈ cs.drop 1, isNumeralChar c) → Free isOperatorChar cs := by
    intro all
    cases cs with
    | nil => trivial
    | cons c r =>
      exact Nesting.avoids_of_forall fun x mem => not_isOperatorChar (by decide) (all x mem)
  unfold literal? at h
  split at h
  · next n read =>
    exact numeral fun c mem => isNumeralChar_of_isDigit (Decimal.isDigit_of_integer? read c mem)
  split at h
  · next x read => exact numeral (Decimal.isNumeralChar_of_pointed? read)
  · obtain ⟨s, read, _⟩ := Option.map_eq_some_iff.1 h
    obtain ⟨inside, quoted, read⟩ := Option.bind_eq_some_iff.1 read
    rw [eq_of_quotedInside? quoted, eq_doubling_of_undoubled? read]
    exact free_of_avoids (avoids_quoted (by decide) (by decide) s)

namespace CallText

variable {text inside rest : List Char} {call : CallText}

theorem parse?_eq_some : parse? text = some call ↔
    ∃ inside rest, trim text = call.name ++ '(' :: (inside ++ ')' :: rest) ∧
      Clause.IsWord call.name ∧ Balanced inside ∧ call.args = arguments inside ∧
      label? rest = some call.label := by
  constructor
  · intro h
    unfold parse? at h
    dsimp only at h
    split at h
    · cases h
    · next r behind ne =>
      split at h
      · next inside rest closed =>
        obtain ⟨label, read, rfl⟩ := Option.map_eq_some_iff.1 h
        obtain ⟨balanced, rfl⟩ := closing?_eq_some.1 closed
        refine ⟨inside, rest, ?_, ⟨?_, ?_⟩, balanced, rfl, read⟩
        · rw [← behind, List.takeWhile_append_dropWhile]
        · exact ne
        · exact fun c mem => List.all_eq_true.1 List.all_takeWhile c mem
      · cases h
    · cases h
  · rintro ⟨inside, rest, whole, ⟨ne, word⟩, balanced, args, label⟩
    have stop : ∀ c ∈ ('(' :: (inside ++ ')' :: rest)).head?, isWordChar c = false := by
      rintro _ ⟨⟩
      decide
    have name := Clause.takeWhile_append word stop
    have behind := Clause.dropWhile_append word stop
    have closed : closing? (inside ++ ')' :: rest) = some (inside, rest) :=
      closing?_eq_some.2 ⟨balanced, rfl⟩
    unfold parse?
    dsimp only
    rw [whole, name, behind]
    split
    · next _ empty => exact absurd empty ne
    · next eq _ =>
      cases eq
      rw [closed]
      dsimp only
      rw [label, ← args]
      rfl
    · next other => exact absurd rfl (other _)

theorem isLayout_of_label? (h : label? rest = some none) : ∀ c ∈ rest, isLayout c := by
  unfold label? at h
  dsimp only at h
  split at h
  · split at h <;> cases h
  · split at h
    · next blank => exact List.all_eq_true.1 blank
    · cases h

end CallText

theorem nestedCall?_eq_some {call : CallText} : nestedCall? cs = some call ↔
    CallText.parse? cs = some call ∧ call.label = none ∧
      isRecognized (String.ofList call.name) := by
  rw [nestedCall?, Option.filter_eq_some_iff, Bool.and_eq_true, Option.isNone_iff_eq_none]

theorem free_of_nestedCall? {call : CallText} (trimmed : trim cs = cs)
    (h : nestedCall? cs = some call) : Free isOperatorChar cs := by
  obtain ⟨parsed, bare, _⟩ := nestedCall?_eq_some.1 h
  obtain ⟨inside, rest, whole, word, balanced, _, label⟩ := CallText.parse?_eq_some.1 parsed
  have unmarked : ∀ c ∈ call.name, isMark c = false := fun c mem => not_isMark (word.2 c mem)
  have parenthesized : call.name ++ '(' :: (inside ++ ')' :: rest) =
      call.name ++ ('(' :: (inside ++ [')']) ++ rest) := by simp
  rw [trimmed, parenthesized] at whole
  rw [bare] at label
  rw [whole]
  refine free_of_avoids (Nesting.avoids_append.2 ⟨?_, ?_⟩)
  · exact Nesting.avoids_of_forall fun c mem => not_isOperatorChar (by decide) (word.2 c mem)
  · rw [Nesting.scan_of_not_isMark rfl unmarked, Nesting.avoids_append,
      balanced.parenthesized.ends]
    exact ⟨avoids_parenthesized balanced (by decide), Nesting.avoids_of_forall fun c mem =>
      not_isOperatorChar (by decide) (CallText.isLayout_of_label? label c mem)⟩

end Function

end ScopedQuery
