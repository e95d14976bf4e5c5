import ScopedQuery.Proofs.Clause.Labelling
import ScopedQuery.Proofs.Function.Canonical

set_option autoImplicit false

namespace ScopedQuery.Function

open Sql Text

def isLead (c : Char) : Bool := isWordChar c || isQuote c || c == '-' || c == '*'

section Lead

variable {c : Char}

theorem isLead_of_isWordChar (h : isWordChar c) : isLead c := by simp [isLead, h]

theorem isLead_of_isQuote (h : isQuote c) : isLead c := by simp [isLead, h]

theorem not_isBlank_of_isLead (h : isLead c) : isBlank c = false := by
  simp only [isLead, isQuote, Bool.or_eq_true, beq_iff_eq] at h
  rcases h with ((word | (rfl | rfl) | rfl) | rfl) | rfl
  · exact Clause.not_isBlank_of_isWordChar word
  all_goals decide

theorem begins_of_isLead (h : isLead c) : begins (operators 3) c = false := by
  rw [Bool.eq_false_iff]
  intro comparison
  rcases eq_of_begins_comparison comparison with rfl | rfl | rfl | rfl <;>
    exact absurd h (by decide)

theorem not_isOperatorChar_of_isLead (h : isLead c) (sign : ¬ (c = '-' ∨ c = '*')) :
    isOperatorChar c = false := by
  have plain : (isWordChar c || isQuote c) = true := by
    rw [isLead, Bool.or_assoc, Bool.or_eq_true] at h
    exact h.resolve_right (by simpa using sign)
  exact not_isOperatorChar (p := fun c => isWordChar c || isQuote c) (by decide) plain

end Lead

/-! ### Operators between operands -/

structure Joint where
  op : BinaryOp
  token : List Char
  before : List Char
  after : List Char
  spells : BinaryOp.ofToken? (String.ofList token) = some op
  blank_before : ∀ c ∈ before, isBlank c
  blank_after : ∀ c ∈ after, isBlank c

namespace Joint

def chars (j : Joint) : List Char := j.before ++ (j.token ++ j.after)

def tight (op : BinaryOp) : Joint :=
  ⟨op, op.token.toList, [], [], by rw [String.ofList_toList, op.ofToken?_token], blank_nil,
    blank_nil⟩

theorem chars_tight (op : BinaryOp) : (tight op).chars = op.token.toList := by
  simp [chars, tight]

variable {k : Nat}

theorem mem_operators (j : Joint) : j.token ∈ operators j.op.rank :=
  mem_operators_of_ofToken? j.spells

theorem begins_blank {cs : List Char} (all : ∀ c ∈ cs, isBlank c) (k : Nat) :
    ∀ c ∈ cs, begins (operators k) c = false := fun c mem =>
  isOperatorChar_of_begins k (not_isOperatorChar (by decide) (all c mem))

theorem not_isMark (j : Joint) : ∀ c ∈ j.chars, isMark c = false := by
  have token := (simple_operators j.op.rank).unmarked _ j.mem_operators
  simp only [chars, List.forall_mem_append]
  exact ⟨fun c mem => isMark_of_isBlank (j.blank_before c mem), token,
    fun c mem => isMark_of_isBlank (j.blank_after c mem)⟩

theorem not_begins (j : Joint) (looser : j.op.rank < k) :
    ∀ c ∈ j.chars, begins (operators k) c = false := by
  simp only [chars, List.forall_mem_append]
  exact ⟨begins_blank j.blank_before k, begins_of_mem_operators j.mem_operators looser,
    begins_blank j.blank_after k⟩

theorem not_comma (j : Joint) : ∀ c ∈ j.chars, (c == ',') = false := by
  have apart : ∀ k ∈ [3, 2, 1], ∀ token ∈ operators k, token.all (· != ',') := by decide
  have token : ∀ c ∈ j.token, (c == ',') = false := by
    simpa using List.all_eq_true.1 (apart _ (rank_mem j.op) _ j.mem_operators)
  have blank {cs : List Char} (all : ∀ c ∈ cs, isBlank c) : ∀ c ∈ cs, (c == ',') = false := by
    intro c mem
    rw [beq_eq_false_iff_ne]
    rintro rfl
    exact absurd (all _ mem) (by decide)
  simp only [chars, List.forall_mem_append]
  exact ⟨blank j.blank_before, token, blank j.blank_after⟩

end Joint

/-! ### What a text shows to the outside -/

/-- What the text of an argument shows when its operators have at most a rank. -/
structure Shaped (rank : Nat) (cs : List Char) : Prop where
  balanced : Balanced cs
  separate : Nesting.top.Avoids (· == ',') cs
  lead : ∃ c r, cs = c :: r ∧ isLead c
  last : ∃ c, cs.getLast? = some c ∧ isBlank c = false
  free : ∀ k, rank < k → Free (begins (operators k)) cs

namespace Shaped

variable {k m : Nat} {a b cs : List Char} {j : Joint}

theorem ne_nil (h : Shaped k cs) : cs ≠ [] := by
  obtain ⟨c, r, rfl, _⟩ := h.lead
  exact List.cons_ne_nil c r

theorem solid (h : Shaped k cs) : Solid cs := by
  obtain ⟨c, r, rfl, lead⟩ := h.lead
  exact ⟨⟨c, rfl, not_isBlank_of_isLead lead⟩, h.last⟩

theorem isLead_head (h : Shaped k cs) : ∀ c ∈ cs.head?, isLead c := by
  obtain ⟨c, r, rfl, lead⟩ := h.lead
  rintro _ ⟨⟩
  exact lead

theorem any_solid (h : Shaped k cs) : cs.any (!isBlank ·) := by
  obtain ⟨c, r, rfl, lead⟩ := h.lead
  rw [List.any_cons, not_isBlank_of_isLead lead]
  rfl

theorem of_free (balanced : Balanced cs) (separate : Nesting.top.Avoids (· == ',') cs)
    (lead : ∃ c r, cs = c :: r ∧ isLead c) (last : ∃ c, cs.getLast? = some c ∧ isBlank c = false)
    (free : Free isOperatorChar cs) : Shaped 0 cs :=
  ⟨balanced, separate, lead, last, fun k _ => free.mono fun _ => isOperatorChar_of_begins k⟩

theorem avoids_of_free {sep : Char → Bool} (free : Free sep cs)
    (head : ∀ c ∈ cs.head?, sep c = false) : Nesting.top.Avoids sep cs := by
  cases cs with
  | nil => trivial
  | cons c r => exact ⟨fun _ => head c rfl, free⟩

theorem around (ha : Shaped k a) (hb : Shaped m b) {between : List Char} {rank : Nat}
    (unmarked : ∀ c ∈ between, isMark c = false) (separate : ∀ c ∈ between, (c == ',') = false)
    (free : ∀ j, rank < j → Free (begins (operators j)) a ∧
      (∀ c ∈ between, begins (operators j) c = false) ∧
      Nesting.top.Avoids (begins (operators j)) b) :
    Shaped rank (a ++ (between ++ b)) := by
  have balanced := balanced_of_not_isMark unmarked
  obtain ⟨c, r, eq, lead⟩ := ha.lead
  obtain ⟨x, final, solid⟩ := hb.last
  refine ⟨ha.balanced.append (balanced.append hb.balanced), ?_, ⟨c, r ++ (between ++ b), ?_, lead⟩,
    ⟨x, ?_, solid⟩, fun j looser => ?_⟩
  · rw [Nesting.avoids_append, Nesting.avoids_append, ha.balanced.ends, balanced.ends]
    exact ⟨ha.separate, Nesting.avoids_of_forall separate, hb.separate⟩
  · rw [eq, List.cons_append]
  · rw [← List.append_assoc, List.getLast?_append, final]
    rfl
  · obtain ⟨front, middle, back⟩ := free j looser
    rw [free_append ha.ne_nil, Nesting.avoids_append, ha.balanced.ends, balanced.ends]
    exact ⟨front, Nesting.avoids_of_forall middle, back⟩

/-- An expression shows the operators of its own rank and of tighter ones. -/
theorem joint (ha : Shaped k a) (hb : Shaped m b) (tighter : k ≤ j.op.rank)
    (last : j.op.rank ≠ 3 → m < j.op.rank)
    (apart : j.op.rank ≠ 3 → ∀ i, j.op.rank ≤ i → ∀ c ∈ b.head?, begins (operators i) c = false) :
    Shaped j.op.rank (a ++ (j.chars ++ b)) := by
  refine around ha hb j.not_isMark j.not_comma fun i looser =>
    ⟨ha.free i (Nat.lt_of_le_of_lt tighter looser), j.not_begins looser, ?_⟩
  -- Nothing is looser than a comparison, so the operator is an arithmetic one.
  by_cases comparison : j.op.rank = 3
  · rw [operators_eq_nil (comparison ▸ looser)]
    exact Nesting.avoids_of_forall fun _ _ => rfl
  · exact avoids_of_free (hb.free i (Nat.lt_trans (last comparison) looser))
      (apart comparison i looser.le)

end Shaped

theorem shaped_star : Shaped 0 ['*'] :=
  .of_free (balanced_of_not_isMark (List.forall_mem_singleton.2 rfl))
    (Nesting.avoids_of_forall (List.forall_mem_singleton.2 rfl))
    ⟨'*', [], rfl, by decide⟩ ⟨'*', rfl, by decide⟩ trivial

theorem shaped_word (negative : Bool) {cs : List Char} (word : Clause.IsWord cs) :
    Shaped 0 (Decimal.signText negative ++ cs) := by
  obtain ⟨ne, word⟩ := word
  have sign : ∀ c ∈ Decimal.signText negative, c = '-' := by
    cases negative
    · nofun
    · exact fun c mem => List.mem_singleton.1 mem
  have each : ∀ c ∈ Decimal.signText negative ++ cs,
      isMark c = false ∧ (c == ',') = false ∧ isLead c := by
    intro c mem
    rcases List.mem_append.1 mem with mem | mem
    · obtain rfl := sign c mem
      decide
    · refine ⟨not_isMark (word c mem), ?_, isLead_of_isWordChar (word c mem)⟩
      rw [beq_eq_false_iff_ne]
      rintro rfl
      exact absurd (word _ mem) (by decide)
  have avoids : Nesting.top.Avoids isOperatorChar cs :=
    Nesting.avoids_of_forall fun c mem => not_isOperatorChar (by decide) (word c mem)
  have whole : Decimal.signText negative ++ cs ≠ [] := List.append_ne_nil_of_right_ne_nil _ ne
  have final := List.getLast_mem whole
  obtain ⟨c, r, eq⟩ := List.exists_cons_of_ne_nil whole
  refine .of_free (balanced_of_not_isMark fun c mem => (each c mem).1)
    (Nesting.avoids_of_forall fun c mem => (each c mem).2.1)
    ⟨c, r, eq, (each c (eq ▸ List.mem_cons_self)).2.2⟩
    ⟨_, List.getLast?_eq_some_getLast whole, not_isBlank_of_isLead (each _ final).2.2⟩ ?_
  cases negative
  · exact free_of_avoids avoids
  · exact avoids

theorem shaped_ofInt (n : Int) : Shaped 0 (Decimal.ofInt n).toList := by
  rw [toList_ofInt]
  refine shaped_word _ ⟨digits_ne_nil _, fun c mem => ?_⟩
  simp [isWordChar, Char.isAlphanum, Decimal.isDigit_of_mem_digits c mem]

theorem apart_of_isQuote {q : Char} (quote : isQuote q) :
    isOperatorChar q = false ∧ (q == ',') = false ∧ isBlank q = false := by
  simp only [isQuote, Bool.or_eq_true, beq_iff_eq] at quote
  rcases quote with (rfl | rfl) | rfl <;> decide

theorem shaped_quoted {q : Char} (quote : isQuote q) (s : List Char) :
    Shaped 0 (q :: (doubling q s ++ [q])) := by
  have apart := apart_of_isQuote quote
  have final : (q :: (doubling q s ++ [q])).getLast? = some q := by
    rw [← List.cons_append, List.getLast?_concat]
  exact .of_free (balanced_quoted quote s) (avoids_quoted quote apart.2.1 s)
    ⟨q, _, rfl, isLead_of_isQuote quote⟩ ⟨q, final, apart.2.2⟩
    (free_of_avoids (avoids_quoted quote apart.1 s))

theorem shaped_call {name inside : List Char} (word : Clause.IsWord name)
    (balanced : Balanced inside) : Shaped 0 (name ++ ('(' :: (inside ++ [')']))) := by
  have bare : Shaped 0 name := shaped_word false word
  have free : Nesting.top.Avoids isOperatorChar name :=
    Nesting.avoids_of_forall fun c mem => not_isOperatorChar (by decide) (word.2 c mem)
  obtain ⟨c, r, rfl, lead⟩ := bare.lead
  refine .of_free (bare.balanced.append balanced.parenthesized) ?_
    ⟨c, r ++ ('(' :: (inside ++ [')'])), rfl, lead⟩ ⟨')', ?_, by decide⟩ (free_of_avoids ?_)
  · rw [Nesting.avoids_append, bare.balanced.ends]
    exact ⟨bare.separate, avoids_parenthesized balanced (by decide)⟩
  · rw [← List.cons_append, ← List.append_assoc, List.getLast?_concat]
  · rw [Nesting.avoids_append, bare.balanced.ends]
    exact ⟨free, avoids_parenthesized balanced (by decide)⟩

theorem shaped_qualified {q : Char} (quote : isQuote q) (table column : List Char) :
    Shaped 0 (q :: (doubling q table ++ [q]) ++ (['.'] ++ q :: (doubling q column ++ [q]))) := by
  have front := shaped_quoted quote table
  have back := shaped_quoted quote column
  refine front.around back (List.forall_mem_singleton.2 rfl) (List.forall_mem_singleton.2 rfl)
    fun j looser => ⟨front.free j looser, ?_, ?_⟩
  · exact fun c mem => isOperatorChar_of_begins j (List.mem_singleton.1 mem ▸ by decide)
  · refine Shaped.avoids_of_free (back.free j looser) ?_
    rintro _ ⟨⟩
    exact isOperatorChar_of_begins j (apart_of_isQuote quote).1

/-! ### Where a text is cut -/

section Cuts

variable {k m : Nat} {a b cs : List Char} {j : Joint} {o : Occurrence}

theorem Shaped.cutAt?_eq_none (h : Shaped k cs) (looser : k < m) :
    cutAt? m cs = none := by
  have free := h.free m looser
  obtain ⟨c, r, rfl, lead⟩ := h.lead
  exact (cutAt?_eq_none_iff (not_isBlank_of_isLead lead) (begins_of_isLead lead) m).2
    (free.mono fun _ => isToken_of_begins)

theorem Shaped.none_of_splitAtOperator? (h : Shaped k cs) (cut : splitAtOperator? cs = some o) :
    literal? cs = none ∧ nestedCall? cs = none := by
  have trimmed := h.solid.trim_eq
  obtain ⟨c, r, rfl, lead⟩ := h.lead
  have contra : ¬ Free isOperatorChar (c :: r) := by
    intro free
    rw [splitAtOperator?_eq_none (not_isBlank_of_isLead lead) (begins_of_isLead lead) free] at cut
    cases cut
  constructor
  · exact Option.eq_none_iff_forall_ne_some.2 fun v read => contra (free_of_literal? read)
  · exact Option.eq_none_iff_forall_ne_some.2 fun call read =>
      contra (free_of_nestedCall? trimmed read)

theorem longestToken?_append {token r : List Char} (mem : token ∈ operators 3)
    (next : ∀ c ∈ r.head?, begins (operators 3) c = false) :
    longestToken? (operators 3) (token ++ r) = some token := by
  have tokens : token ∈ [['!', '='], ['<', '>'], ['<', '='], ['>', '='], ['=', '<'], ['=', '>'],
      ['='], ['<'], ['>']] := mem
  simp only [List.mem_cons, List.not_mem_nil, or_false] at tokens
  cases r with
  | nil => rcases tokens with rfl | rfl | rfl | rfl | rfl | rfl | rfl | rfl | rfl <;> rfl
  | cons c r =>
    have other : ∀ x, begins (operators 3) x → x ≠ c := by
      rintro x token rfl
      rw [next x rfl] at token
      cases token
    have equal := other '=' (by decide)
    have less := other '<' (by decide)
    have greater := other '>' (by decide)
    rcases tokens with rfl | rfl | rfl | rfl | rfl | rfl | rfl | rfl | rfl <;>
      simp [longestToken?, operators, equal, less, greater]

/-- What follows a comparison begins none: blanks, or the second operand. -/
theorem Joint.next (j : Joint) (hb : Shaped m b) :
    ∀ c ∈ (j.after ++ b).head?, begins (operators 3) c = false := by
  intro c first
  rw [List.head?_append] at first
  cases behind : j.after.head? with
  | none =>
    rw [behind] at first
    exact begins_of_isLead (hb.isLead_head c first)
  | some x =>
    rw [behind] at first
    cases first
    exact begins_blank j.blank_after 3 _ (List.mem_of_head? behind)

/-- The text of an expression is cut at its loosest operator: the only comparison, or the last one
of its rank. -/
theorem splitAtOperator?_joint (ha : Shaped k a) (hb : Shaped m b) (tighter : k ≤ j.op.rank)
    (first : j.op.rank = 3 → k ≠ 3) (last : j.op.rank ≠ 3 → m < j.op.rank)
    (apart : j.op.rank ≠ 3 → ∀ i, j.op.rank ≤ i → ∀ c ∈ b.head?, begins (operators i) c = false) :
    splitAtOperator? (a ++ (j.chars ++ b)) = some ⟨a ++ j.before, j.token, j.after ++ b⟩ := by
  have whole := ha.joint hb tighter last apart
  refine splitAtOperator?_eq_some.2 ⟨j.op.rank, rank_mem j.op, ?_, fun i _ looser =>
    whole.cutAt?_eq_none looser⟩
  have text : a ++ (j.chars ++ b) = (a ++ j.before) ++ (j.token ++ (j.after ++ b)) := by
    simp [Joint.chars]
  have scan {cs : List Char} (blank : ∀ c ∈ cs, isBlank c) : Nesting.top.scan cs = .top :=
    Nesting.scan_of_not_isMark rfl fun c mem => isMark_of_isBlank (blank c mem)
  have ends : Nesting.top.scan (a ++ j.before) = .top := by
    rw [Nesting.scan_append, ha.balanced.ends, scan j.blank_before]
  have operand : (a ++ j.before).any (!isBlank ·) := by
    rw [List.any_append, ha.any_solid, Bool.true_or]
  have token := j.mem_operators
  rw [text]
  by_cases comparison : j.op.rank = 3
  · have avoids : Nesting.top.Avoids (begins (operators 3)) (a ++ j.before) := by
      rw [Nesting.avoids_append, ha.balanced.ends]
      refine ⟨Shaped.avoids_of_free (ha.free 3 (by have := first comparison; omega))
        fun c head => begins_of_isLead (ha.isLead_head c head), ?_⟩
      exact Nesting.avoids_of_forall (Joint.begins_blank j.blank_before 3)
    rw [comparison] at token ⊢
    have found := longestToken?_append token (j.next hb)
    obtain ⟨x, rest, eq⟩ := List.exists_cons_of_ne_nil fun none : j.token = [] =>
      (simple_operators 3).nil_not_mem (none ▸ token)
    have unmarked := (simple_operators 3).unmarked _ token x (eq ▸ List.mem_cons_self)
    rw [cutAt?]
    rw [eq] at found ⊢
    have cut := findToken?_append (simple_operators 3).nil_not_mem ends avoids operand unmarked
      found
    simpa using cut
  · have single := length_of_mem_operators comparison
    obtain ⟨x, eq⟩ := List.length_eq_one_iff.1 (single _ token)
    have here : isToken (operators j.op.rank) x := List.contains_iff_mem.2 (eq ▸ token)
    have free := Shaped.avoids_of_free (hb.free _ (last comparison)) (apart comparison _ le_rfl)
    have behind : Nesting.top.Avoids (isToken (operators j.op.rank)) (j.after ++ b) := by
      rw [Nesting.avoids_append, scan j.blank_after]
      refine ⟨Nesting.avoids_of_forall fun c mem => isToken_of_begins ?_,
        free.mono fun _ => isToken_of_begins⟩
      exact Joint.begins_blank j.blank_after _ c mem
    rw [cutAt?, show (j.op.rank != 3) = true by simpa using comparison, eq]
    exact findToken?_append_last single (simple_operators j.op.rank) ends operand here behind

end Cuts

end ScopedQuery.Function
