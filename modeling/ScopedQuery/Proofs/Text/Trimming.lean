import ScopedQuery.Proofs.Text.Lead

set_option autoImplicit false

namespace ScopedQuery.Text

variable {cs a b : List Char}

theorem blank_nil : ∀ c ∈ ([] : List Char), isBlank c := List.forall_mem_nil _

theorem blank_space : ∀ c ∈ [' '], isBlank c := List.forall_mem_singleton.2 rfl

/-- Whether a text begins and ends with characters that are not blank. -/
structure Solid (cs : List Char) : Prop where
  first : ∃ c, cs.head? = some c ∧ isBlank c = false
  last : ∃ c, cs.getLast? = some c ∧ isBlank c = false

theorem Solid.around (ha : Solid a) (hb : Solid b) (between : List Char) :
    Solid (a ++ (between ++ b)) := by
  obtain ⟨c, first, begins⟩ := ha.first
  obtain ⟨x, last, ends⟩ := hb.last
  refine ⟨⟨c, ?_, begins⟩, x, ?_, ends⟩
  · rw [List.head?_append, first]
    rfl
  · rw [← List.append_assoc, List.getLast?_append, last]
    rfl

theorem Solid.trim_eq (h : Solid cs) : trim cs = cs := by
  obtain ⟨c, first, begins⟩ := h.first
  obtain ⟨x, last, ends⟩ := h.last
  have left : trimLeft cs = cs := by
    obtain ⟨r, rfl⟩ := List.head?_eq_some_iff.1 first
    unfold trimLeft
    rw [List.dropWhile_cons, begins]
    rfl
  have right : trimRight cs = cs := by
    rw [← List.head?_reverse] at last
    obtain ⟨r, reversed⟩ := List.head?_eq_some_iff.1 last
    unfold trimRight
    rw [reversed, List.dropWhile_cons, ends]
    exact List.reverse_eq_iff.2 reversed.symm
  rw [trim, left, right]

theorem solid_trim (ne : trim cs ≠ []) : Solid (trim cs) := by
  obtain ⟨c, r, eq⟩ := List.exists_cons_of_ne_nil ne
  have head := head?_trim cs
  rw [eq, List.head?_cons] at head
  refine ⟨⟨c, by rw [eq]; rfl, by simpa using List.find?_some head.symm⟩, ?_⟩
  have ne' : (trimLeft cs).reverse.dropWhile isBlank ≠ [] := by
    intro empty
    rw [trim, trimRight, empty] at ne
    exact ne rfl
  obtain ⟨x, s, last⟩ := List.exists_cons_of_ne_nil ne'
  refine ⟨x, by rw [trim, trimRight, List.getLast?_reverse, last]; rfl, ?_⟩
  have solid := List.head?_dropWhile_not isBlank (trimLeft cs).reverse
  rw [last] at solid
  simpa using solid

theorem trim_trim (cs : List Char) : trim (trim cs) = trim cs := by
  by_cases empty : trim cs = []
  · rw [empty]
    rfl
  · exact (solid_trim empty).trim_eq

theorem Solid.trim_around (h : Solid cs) (front : ∀ c ∈ a, isBlank c) (back : ∀ c ∈ b, isBlank c) :
    trim (a ++ (cs ++ b)) = cs := by
  obtain ⟨c, first, begins⟩ := h.first
  obtain ⟨r, rfl⟩ := List.head?_eq_some_iff.1 first
  have left : trimLeft (a ++ (c :: r ++ b)) = c :: r ++ b := by
    rw [trimLeft, List.dropWhile_append_of_pos front, List.cons_append, List.dropWhile_cons, begins]
    rfl
  have right : trimRight (c :: r ++ b) = trimRight (c :: r) := by
    rw [trimRight, List.reverse_append,
      List.dropWhile_append_of_pos fun x mem => back x (List.mem_reverse.1 mem), trimRight]
  have self : trimLeft (c :: r) = c :: r := by
    rw [trimLeft, List.dropWhile_cons, begins]
    rfl
  have trimmed := h.trim_eq
  rw [trim, self] at trimmed
  rw [trim, left, right, trimmed]

theorem blanks_around_trim (cs : List Char) : ∃ front back, cs = front ++ (trim cs ++ back) ∧
    (∀ c ∈ front, isBlank c) ∧ ∀ c ∈ back, isBlank c := by
  refine ⟨cs.takeWhile isBlank, ((trimLeft cs).reverse.takeWhile isBlank).reverse, ?_, ?_, ?_⟩
  · have inner : trimLeft cs = trim cs ++ ((trimLeft cs).reverse.takeWhile isBlank).reverse := by
      rw [trim, trimRight, ← List.reverse_append, List.takeWhile_append_dropWhile,
        List.reverse_reverse]
    rw [← inner]
    exact List.takeWhile_append_dropWhile.symm
  · exact fun c mem => List.all_eq_true.1 List.all_takeWhile c mem
  · exact fun c mem => List.all_eq_true.1 List.all_takeWhile c (List.mem_reverse.1 mem)

theorem blanks_behind_trim (first : ∀ c ∈ cs.head?, isBlank c = false) :
    ∃ back, cs = trim cs ++ back ∧ ∀ c ∈ back, isBlank c := by
  obtain ⟨front, back, whole, before, behind⟩ := blanks_around_trim cs
  cases front with
  | nil => exact ⟨back, whole, behind⟩
  | cons c front =>
    have solid : isBlank c = false := first c (by rw [whole]; rfl)
    rw [before c List.mem_cons_self] at solid
    cases solid

theorem Solid.trim_append (h : Solid a) (b : List Char) : ∃ b', trim (a ++ b) = a ++ b' := by
  obtain ⟨c, first, begins⟩ := h.first
  obtain ⟨x, last, ends⟩ := h.last
  have starts : ∀ y ∈ (a ++ b).head?, isBlank y = false := by
    rw [List.head?_append, first]
    rintro _ ⟨⟩
    exact begins
  obtain ⟨back, whole, behind⟩ := blanks_behind_trim starts
  rcases List.append_eq_append_iff.1 whole with ⟨b', eq, _⟩ | ⟨lost, eq, rest⟩
  · exact ⟨b', eq⟩
  · cases lost with
    | nil =>
      rw [List.append_nil] at eq
      exact ⟨[], by rw [List.append_nil, ← eq]⟩
    | cons y lost =>
      -- The end of the text would be among the blanks that are taken away.
      rw [eq, List.getLast?_append_of_ne_nil _ (List.cons_ne_nil y lost)] at last
      have mem : x ∈ back := by
        rw [rest]
        exact List.mem_append_left b (List.mem_of_getLast? last)
      rw [behind x mem] at ends
      cases ends

theorem afterFolded?_append {fold : Char → Char} {ws cs rest : List Char}
    (h : afterFolded? fold ws cs = some rest) :
    ∃ front, cs = front ++ rest ∧ front.map fold = ws := by
  induction ws generalizing cs with
  | nil =>
    cases h
    exact ⟨[], rfl, rfl⟩
  | cons w ws ih =>
    cases cs with
    | nil => cases h
    | cons c cs =>
      rw [afterFolded?] at h
      split at h
      · next same =>
        obtain ⟨front, rfl, folded⟩ := ih h
        have first : fold c = w := by simpa using same
        exact ⟨c :: front, rfl, by rw [List.map_cons, first, folded]⟩
      · cases h

end ScopedQuery.Text
