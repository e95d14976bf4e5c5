import Mathlib.Data.List.Infix
import ScopedQuery.Text.Replace

set_option autoImplicit false

namespace ScopedQuery.Text

structure Divides (pattern : String) (parts : List String) (text : String) : Prop where
  whole : pattern.intercalate parts = text
  free : ∀ part ∈ parts, ¬ pattern.toList <:+: part.toList

variable {pattern text : String} {parts : List String} {p q r s : List Char}

section Scan

theorem replaceFrom_skip (p q : List Char) (n : Nat) (cs : List Char) :
    replaceFrom p q n cs = replaceFrom p q 0 (cs.drop n) := by
  induction cs generalizing n with
  | nil => simp [replaceFrom]
  | cons c cs ih =>
    cases n with
    | zero => rfl
    | succ n =>
      rw [replaceFrom, List.drop_succ_cons]
      exact ih n

theorem replaceFrom_pattern (ne : p ≠ []) (q r : List Char) :
    replaceFrom p q 0 (p ++ r) = q ++ replaceFrom p q 0 r := by
  cases p with
  | nil => exact absurd rfl ne
  | cons x p =>
    have here : (x :: p).isPrefixOf (x :: (p ++ r)) :=
      List.isPrefixOf_iff_prefix.2 (List.prefix_append (x :: p) r)
    rw [List.cons_append, replaceFrom, here, replaceFrom_skip, List.length_cons,
      Nat.add_sub_cancel, List.drop_left]
    rfl

theorem replaceFrom_append (apart : ∀ s, s <:+ r → s ≠ [] → ¬ p <+: s ++ q) (w : List Char) :
    replaceFrom p w 0 (r ++ q) = r ++ replaceFrom p w 0 q := by
  induction r with
  | nil => rfl
  | cons c r ih =>
    have here : p.isPrefixOf (c :: (r ++ q)) = false := by
      rw [Bool.eq_false_iff, ne_eq, List.isPrefixOf_iff_prefix]
      exact apart (c :: r) List.suffix_rfl (List.cons_ne_nil c r)
    rw [List.cons_append, replaceFrom, here, Bool.and_false, if_neg Bool.false_ne_true,
      ih fun s suffix => apart s (suffix.trans (List.suffix_cons c r))]
    rfl

/-- A pattern whose first character does not come again cannot begin in a part that is free of it
and go on into its next occurrence. -/
theorem not_begins (lone : ∀ x ∈ p.head?, x ∉ p.tail) (free : ¬ p <:+: s) (ne : s ≠ []) :
    ¬ p <+: s ++ (p ++ r) := by
  intro begins
  rcases List.prefix_or_prefix_of_prefix begins (List.prefix_append s _) with inside | beyond
  · exact free inside.isInfix
  · obtain ⟨z, rfl⟩ := beyond
    cases z with
    | nil =>
      rw [List.append_nil] at free
      exact free List.infix_rfl
    | cons x z =>
      obtain ⟨y, s, rfl⟩ := List.exists_cons_of_ne_nil ne
      have again := (List.prefix_append_right_inj (y :: s)).1 begins
      rw [List.cons_append, List.cons_append, List.cons_prefix_cons] at again
      exact lone y rfl (by simp [again.1])

end Scan

theorem replaceAll_of_divides (lone : ∀ x ∈ pattern.toList.head?, x ∉ pattern.toList.tail)
    (h : Divides pattern parts text) (replacement : String) :
    replaceAll pattern replacement text = replacement.intercalate parts := by
  obtain ⟨rfl, free⟩ := h
  rw [replaceAll, ← String.toList_inj, String.toList_ofList]
  induction parts with
  | nil => rfl
  | cons part parts ih =>
    obtain ⟨first, others⟩ := List.forall_mem_cons.1 free
    have apart : ∀ s, s <:+ part.toList → ¬ pattern.toList <:+: s :=
      fun s suffix inside => first (inside.trans suffix.isInfix)
    by_cases last : parts = []
    · subst last
      have whole := replaceFrom_append (q := []) (fun s suffix _ begins => apart s suffix
        (List.append_nil s ▸ begins).isInfix) replacement.toList
      simpa [replaceFrom] using whole
    · have ne : pattern.toList ≠ [] := by
        intro empty
        exact first (empty ▸ List.nil_infix)
      rw [String.intercalate_cons_of_ne_nil last, String.intercalate_cons_of_ne_nil last]
      simp only [String.toList_append, List.append_assoc]
      rw [replaceFrom_append fun s suffix => not_begins lone (apart s suffix),
        replaceFrom_pattern ne, ih others]

theorem exists_divides (ne : pattern ≠ "") (text : String) :
    ∃ parts, parts ≠ [] ∧ Divides pattern parts text := by
  induction size : text.length using Nat.strong_induction_on generalizing text with
  | h n ih =>
    by_cases found : pattern.toList <:+: text.toList
    · obtain ⟨a, b, eq⟩ := found
      have positive : 0 < pattern.toList.length :=
        List.length_pos_of_ne_nil fun empty => ne (String.toList_eq_nil_iff.1 empty)
      have total := congrArg List.length eq
      simp only [List.length_append, String.length_toList] at total positive
      obtain ⟨front, filled, before⟩ := ih a.length (by omega) (String.ofList a) (by simp)
      obtain ⟨back, filled', behind⟩ := ih b.length (by omega) (String.ofList b) (by simp)
      refine ⟨front ++ back, List.append_ne_nil_of_left_ne_nil filled _, ?_, ?_⟩
      · rw [String.intercalate_append_of_ne_nil filled filled', before.whole, behind.whole,
          ← String.toList_inj, ← eq]
        simp
      · exact List.forall_mem_append.2 ⟨before.free, behind.free⟩
    · exact ⟨[text], List.cons_ne_nil _ _, String.intercalate_singleton,
        List.forall_mem_singleton.2 found⟩

end ScopedQuery.Text
