import ScopedQuery.Proofs.Text.TopLevel
import ScopedQuery.Proofs.Text.Trimming

set_option autoImplicit false

namespace ScopedQuery.Text

variable {a b cs : List Char} {c x : Char}

theorem blank_of_trim_eq_nil (h : trim cs = []) : ∀ c ∈ cs, isBlank c := by
  obtain ⟨front, back, whole, leading, trailing⟩ := blanks_around_trim cs
  rw [h, List.nil_append] at whole
  rw [whole]
  exact List.forall_mem_append.2 ⟨leading, trailing⟩

theorem trim_eq_nil_of_blank (h : ∀ c ∈ cs, isBlank c) : trim cs = [] := by
  have nothing : cs.dropWhile isBlank = [] := by
    rw [← List.append_nil cs, List.dropWhile_append_of_pos h, List.dropWhile_nil]
  rw [trim, trimLeft, nothing]
  rfl

theorem trimRight_append (solid : isBlank x = false) (back : ∀ c ∈ b, isBlank c)
    (a : List Char) : trimRight (a ++ x :: b) = a ++ [x] := by
  have reversed : (a ++ x :: b).reverse = b.reverse ++ x :: a.reverse := by simp
  rw [trimRight, reversed,
    List.dropWhile_append_of_pos fun c mem => back c (List.mem_reverse.1 mem),
    List.dropWhile_cons, solid]
  simp

theorem words_of_blanks (blank : ∀ c ∈ a, isBlank c) (cs : List Char) :
    words (a ++ cs) = words cs := by
  induction a with
  | nil => rfl
  | cons c a ih =>
    obtain ⟨first, others⟩ := List.forall_mem_cons.1 blank
    rw [List.cons_append, words, if_pos first, ih others]

theorem words_append (ne : a ≠ []) (solid : ∀ c ∈ a, isBlank c = false) (ends : endsWord cs) :
    words (a ++ cs) = a :: words cs := by
  induction a with
  | nil => exact absurd rfl ne
  | cons c a ih =>
    obtain ⟨first, others⟩ := List.forall_mem_cons.1 solid
    rw [List.cons_append, words, first, if_neg Bool.false_ne_true]
    cases a with
    | nil => exact if_pos ends
    | cons x a =>
      have goesOn : endsWord (x :: a ++ cs) = false := others x List.mem_cons_self
      rw [goesOn, if_neg Bool.false_ne_true, ih (List.cons_ne_nil x a) others]

theorem words_of_solid (ne : a ≠ []) (solid : ∀ c ∈ a, isBlank c = false) : words a = [a] := by
  have alone : words (a ++ []) = a :: words [] := words_append ne solid rfl
  rwa [List.append_nil] at alone

theorem words_ne_nil (mem : c ∈ cs) (solid : isBlank c = false) : words cs ≠ [] := by
  induction cs with
  | nil => cases mem
  | cons x cs ih =>
    rw [words]
    split
    · next blank =>
      rcases List.mem_cons.1 mem with rfl | later
      · rw [solid] at blank
        cases blank
      · exact ih later
    split
    · exact List.cons_ne_nil _ _
    · split <;> exact List.cons_ne_nil _ _

theorem intercalate_append {texts more : List (List Char)} (ne : texts ≠ []) (ne' : more ≠ [])
    (sep : List Char) :
    sep.intercalate (texts ++ more) = sep.intercalate texts ++ (sep ++ sep.intercalate more) := by
  induction texts with
  | nil => exact absurd rfl ne
  | cons a texts ih =>
    by_cases last : texts = []
    · rw [last, List.intercalate_singleton, List.singleton_append,
        List.intercalate_cons_of_ne_nil ne', List.append_assoc]
    · have filled : texts ++ more ≠ [] := List.append_ne_nil_of_left_ne_nil last more
      rw [List.cons_append, List.intercalate_cons_of_ne_nil filled, ih last,
        List.intercalate_cons_of_ne_nil last]
      simp

theorem intercalate_flatten {lists : List (List (List Char))} (ne : ∀ texts ∈ lists, texts ≠ [])
    (sep : List Char) :
    sep.intercalate (lists.map sep.intercalate) = sep.intercalate lists.flatten := by
  induction lists with
  | nil => rfl
  | cons texts lists ih =>
    obtain ⟨first, others⟩ := List.forall_mem_cons.1 ne
    by_cases last : lists = []
    · simp [last]
    · have filled : lists.flatten ≠ [] := by
        obtain ⟨more, rest, rfl⟩ := List.exists_cons_of_ne_nil last
        exact List.append_ne_nil_of_left_ne_nil (others more List.mem_cons_self) _
      rw [List.map_cons, List.intercalate_cons_of_ne_nil (by simpa using last), ih others,
        List.flatten_cons, intercalate_append first filled, List.append_assoc]

theorem intercalate_partsFrom (sep : Char) (n : Nesting) (cs : List Char) :
    [sep].intercalate (partsFrom sep n cs) = cs := by
  induction cs generalizing n with
  | nil => rfl
  | cons c cs ih =>
    rw [partsFrom]
    split
    · next cut =>
      simp only [Bool.and_eq_true, beq_iff_eq] at cut
      rw [List.intercalate_cons_of_ne_nil (partsFrom_ne_nil _ _ _), ih, cut.1.2]
      rfl
    · have rest := ih (n.step c)
      split
      · next p ps parted =>
        rw [parted] at rest
        cases ps with
        | nil => simpa using rest
        | cons q ps =>
          rw [List.intercalate_cons_of_ne_nil (List.cons_ne_nil q ps)] at rest ⊢
          simpa using rest
      · next none => exact absurd none (partsFrom_ne_nil _ _ _)

end ScopedQuery.Text
