import ScopedQuery.Proofs.Text.TopLevel

set_option autoImplicit false

namespace ScopedQuery.Text

variable {tokens : List (List Char)} {n : Nesting} {operand last : Bool} {a r t cs : List Char}
  {c : Char} {o : Occurrence}

def begins (tokens : List (List Char)) (c : Char) : Bool := tokens.any fun t => t.head? == some c

def isToken (tokens : List (List Char)) (c : Char) : Bool := tokens.contains [c]

theorem isToken_of_begins (h : begins tokens c = false) : isToken tokens c = false := by
  rw [isToken, Bool.eq_false_iff, ne_eq, List.contains_iff_mem]
  intro mem
  have other := List.any_eq_false.1 h [c] mem
  simp at other

/-- Whether tokens are written without quote marks and parentheses, each of them with a character
that is a token by itself. -/
structure Simple (tokens : List (List Char)) : Prop where
  unmarked : ∀ t ∈ tokens, ∀ c ∈ t, isMark c = false
  core : ∀ t ∈ tokens, ∃ c ∈ t, isToken tokens c

theorem simple_of_all (h : tokens.all fun t => t.all (!isMark ·) && t.any (isToken tokens)) :
    Simple tokens where
  unmarked t mem c inside := by
    have each := List.all_eq_true.1 h t mem
    rw [Bool.and_eq_true, List.all_eq_true] at each
    simpa using each.1 c inside
  core t mem := by
    have each := List.all_eq_true.1 h t mem
    rw [Bool.and_eq_true, List.any_eq_true] at each
    exact each.2

theorem Simple.nil_not_mem (simple : Simple tokens) : [] ∉ tokens := by
  intro mem
  obtain ⟨c, empty, _⟩ := simple.core [] mem
  cases empty

theorem longestToken?_eq_none (nil : [] ∉ tokens) (h : begins tokens c = false) :
    longestToken? tokens (c :: r) = none := by
  cases found : longestToken? tokens (c :: r) with
  | none => rfl
  | some t =>
    have mem := mem_of_longestToken? found
    obtain ⟨x, t, rfl⟩ := List.exists_cons_of_ne_nil fun e : t = [] => nil (e ▸ mem)
    have same := (List.cons_prefix_cons.1 (begins_of_longestToken? found)).1
    have other := List.any_eq_false.1 h _ mem
    simp [same] at other

def Occurrence.behind (front : List Char) (o : Occurrence) : Occurrence :=
  { o with left := front ++ o.left }

theorem map_behind_append (front : List Char) (os : List Occurrence) :
    (os.map (Occurrence.behind front)).map (Occurrence.behind [c]) =
      os.map (Occurrence.behind (c :: front)) := by
  rw [List.map_map]
  rfl

/-! ### One character -/

def occurrenceHere? (tokens : List (List Char)) (operand : Bool) (n : Nesting) (r : List Char)
    (c : Char) : Option Occurrence :=
  if operand && n.isTop && !isMark c then
    (longestToken? tokens (c :: r)).map fun t => ⟨[], t, (c :: r).drop t.length⟩
  else none

theorem occurrencesFrom_cons
    (short : n.isTop → isMark c = false → ∀ t, longestToken? tokens (c :: r) = some t →
      t.length = 1) :
    occurrencesFrom tokens operand n 0 (c :: r) =
      (occurrenceHere? tokens operand n r c).toList ++
        (occurrencesFrom tokens (operand || !isBlank c) (n.step c) 0 r).map
          (Occurrence.behind [c]) := by
  rw [occurrencesFrom, occurrenceHere?]
  by_cases top : (n.isTop && !isMark c) = true
  · have unmarked : n.isTop ∧ isMark c = false := by simpa using top
    have stays : n.step c = n := Nesting.step_of_not_isMark unmarked.1 unmarked.2
    rw [if_pos top, Bool.and_assoc, top, Bool.and_true, stays]
    cases found : longestToken? tokens (c :: r) with
    | none => cases operand <;> rfl
    | some t =>
      obtain ⟨x, rfl⟩ := List.length_eq_one_iff.1 (short unmarked.1 unmarked.2 t found)
      cases operand <;> rfl
  · rw [if_neg top, Bool.and_assoc, Bool.eq_false_iff.2 top, Bool.and_false]
    rfl

theorem occurrencesFrom_cons_of_absent
    (absent : n.isTop → isMark c = false → longestToken? tokens (c :: r) = none) :
    occurrencesFrom tokens operand n 0 (c :: r) =
      (occurrencesFrom tokens (operand || !isBlank c) (n.step c) 0 r).map
        (Occurrence.behind [c]) := by
  have here : occurrenceHere? tokens operand n r c = none := by
    unfold occurrenceHere?
    split
    · next top =>
      simp only [Bool.and_eq_true, Bool.not_eq_true'] at top
      rw [absent top.1.2 top.2]
      rfl
    · rfl
  rw [occurrencesFrom_cons fun top unmarked t found => by simp [absent top unmarked] at found, here]
  rfl

theorem head?_occurrencesFrom (top : n.isTop) (unmarked : isMark c = false)
    (found : longestToken? tokens (c :: r) = some t) :
    (occurrencesFrom tokens true n 0 (c :: r)).head? = some ⟨[], t, (c :: r).drop t.length⟩ := by
  rw [occurrencesFrom, found, top, unmarked]
  rfl

theorem absent_or_present (tokens : List (List Char)) (n : Nesting) (c : Char) (r : List Char) :
    (n.isTop → isMark c = false → longestToken? tokens (c :: r) = none) ∨
      ∃ t, (occurrencesFrom tokens true n 0 (c :: r)).head? =
        some ⟨[], t, (c :: r).drop t.length⟩ := by
  by_cases top : n.isTop ∧ isMark c = false
  · cases found : longestToken? tokens (c :: r) with
    | none => exact .inl fun _ _ => rfl
    | some t => exact .inr ⟨t, head?_occurrencesFrom top.1 top.2 found⟩
  · exact .inl fun isTop unmarked => absurd ⟨isTop, unmarked⟩ top

theorem occurrences_cons (solid : isBlank c = false)
    (short : ∀ t ∈ tokens, t.head? = some c → t.length = 1) (nil : [] ∉ tokens) (r : List Char) :
    occurrences tokens (c :: r) =
      (occurrencesFrom tokens true (Nesting.top.step c) 0 r).map (Occurrence.behind [c]) := by
  have one : ∀ t, longestToken? tokens (c :: r) = some t → t.length = 1 := by
    intro t found
    have mem := mem_of_longestToken? found
    obtain ⟨x, t, rfl⟩ := List.exists_cons_of_ne_nil fun e : t = [] => nil (e ▸ mem)
    have same := (List.cons_prefix_cons.1 (begins_of_longestToken? found)).1
    exact short _ mem (congrArg some same)
  rw [occurrences, occurrencesFrom_cons fun _ _ => one, solid]
  rfl

/-! ### Where no token stands -/

theorem Simple.isToken_of_isMark (simple : Simple tokens) (marked : isMark c) :
    isToken tokens c = false := by
  rw [Bool.eq_false_iff, isToken, ne_eq, List.contains_iff_mem]
  intro mem
  rw [simple.unmarked _ mem c List.mem_cons_self] at marked
  cases marked

theorem Simple.isToken_of_absent (simple : Simple tokens) (top : n.isTop)
    (absent : n.isTop → isMark c = false → longestToken? tokens (c :: r) = none) :
    isToken tokens c = false := by
  cases marked : isMark c with
  | true => exact simple.isToken_of_isMark marked
  | false =>
    rw [Bool.eq_false_iff]
    intro token
    have found : (longestToken? tokens (c :: r)).isSome :=
      longestToken?_isSome (List.contains_iff_mem.1 token) (by simp)
    rw [absent top marked] at found
    cases found

/-- Up to the first token behind an operand the top level shows none. -/
theorem avoids_of_head? (simple : Simple tokens)
    (h : (occurrencesFrom tokens true n 0 cs).head? = some o) :
    n.Avoids (isToken tokens) o.left := by
  induction cs generalizing n o with
  | nil => cases h
  | cons c r ih =>
    rcases absent_or_present tokens n c r with absent | ⟨t, first⟩
    · rw [occurrencesFrom_cons_of_absent absent, List.head?_map, Option.map_eq_some_iff] at h
      obtain ⟨o, found, rfl⟩ := h
      exact ⟨fun top => simple.isToken_of_absent top absent, ih found⟩
    · rw [first] at h
      cases h
      trivial

theorem avoids_of_eq_nil (simple : Simple tokens) (h : occurrencesFrom tokens true n 0 cs = []) :
    n.Avoids (isToken tokens) cs := by
  induction cs generalizing n with
  | nil => trivial
  | cons c r ih =>
    rcases absent_or_present tokens n c r with absent | ⟨t, first⟩
    · rw [occurrencesFrom_cons_of_absent absent, List.map_eq_nil_iff] at h
      exact ⟨fun top => simple.isToken_of_absent top absent, ih h⟩
    · rw [h] at first
      cases first

theorem occurrencesFrom_eq_nil (simple : Simple tokens) (h : n.Avoids (isToken tokens) cs) :
    occurrencesFrom tokens operand n 0 cs = [] := by
  induction cs generalizing n operand with
  | nil => rfl
  | cons c r ih =>
    have absent : n.isTop → isMark c = false → longestToken? tokens (c :: r) = none := by
      intro top _
      cases found : longestToken? tokens (c :: r) with
      | none => rfl
      | some t =>
        have mem := mem_of_longestToken? found
        obtain ⟨rest, whole⟩ := begins_of_longestToken? found
        obtain ⟨x, inside, token⟩ := simple.core t mem
        obtain ⟨front, back, rfl⟩ := List.append_of_mem inside
        -- The scan is still at the top level where it meets that character.
        have stays : n.scan front = n := Nesting.scan_of_not_isMark top fun y hy =>
          simple.unmarked _ mem y (List.mem_append_left _ hy)
        rw [← whole, List.append_assoc, Nesting.avoids_append, stays] at h
        rw [h.2.1 top] at token
        cases token
    rw [occurrencesFrom_cons_of_absent absent, ih h.2]
    rfl

theorem occurrencesFrom_append (nil : [] ∉ tokens) (h : n.Avoids (begins tokens) a)
    (r : List Char) :
    occurrencesFrom tokens operand n 0 (a ++ r) =
      (occurrencesFrom tokens (operand || a.any (!isBlank ·)) (n.scan a) 0 r).map
        (Occurrence.behind a) := by
  induction a generalizing operand n with
  | nil =>
    rw [List.nil_append, List.any_nil, Bool.or_false]
    exact (List.map_id _).symm
  | cons c a ih =>
    rw [List.cons_append,
      occurrencesFrom_cons_of_absent fun top _ => longestToken?_eq_none nil (h.1 top), ih h.2,
      map_behind_append, List.any_cons, ← Bool.or_assoc]
    rfl

/-! ### Tokens of one character -/

section Single

variable (single : ∀ t ∈ tokens, t.length = 1)

include single

theorem occurrencesFrom_cons_single :
    occurrencesFrom tokens operand n 0 (c :: r) =
      (occurrenceHere? tokens operand n r c).toList ++
        (occurrencesFrom tokens (operand || !isBlank c) (n.step c) 0 r).map
          (Occurrence.behind [c]) :=
  occurrencesFrom_cons fun _ _ t found => single t (mem_of_longestToken? found)

theorem of_occurrenceHere? (h : occurrenceHere? tokens operand n r c = some o) :
    operand ∧ n = .top ∧ isMark c = false ∧ o = ⟨[], [c], r⟩ := by
  unfold occurrenceHere? at h
  split at h
  · next top =>
    simp only [Bool.and_eq_true, Bool.not_eq_true'] at top
    obtain ⟨t, found, rfl⟩ := Option.map_eq_some_iff.1 h
    obtain ⟨x, rfl⟩ := List.length_eq_one_iff.1 (single t (mem_of_longestToken? found))
    obtain ⟨rfl, -⟩ := List.cons_prefix_cons.1 (begins_of_longestToken? found)
    exact ⟨top.1.1, Nesting.eq_top top.1.2, top.2, rfl⟩
  · cases h

theorem scan_left_of_mem (h : o ∈ occurrencesFrom tokens operand n 0 cs) :
    n.scan o.left = .top := by
  induction cs generalizing n operand o with
  | nil => cases h
  | cons c r ih =>
    rw [occurrencesFrom_cons_single single, List.mem_append, Option.mem_toList] at h
    rcases h with here | further
    · obtain ⟨_, top, _, rfl⟩ := of_occurrenceHere? single here
      exact top
    · obtain ⟨o, found, rfl⟩ := List.mem_map.1 further
      have inner := ih found
      exact inner

theorem avoids_of_getLast? (simple : Simple tokens)
    (h : (occurrencesFrom tokens operand n 0 cs).getLast? = some o) :
    Nesting.top.Avoids (isToken tokens) o.right := by
  induction cs generalizing n operand o with
  | nil => cases h
  | cons c r ih =>
    rw [occurrencesFrom_cons_single single] at h
    by_cases none : occurrencesFrom tokens (operand || !isBlank c) (n.step c) 0 r = []
    · rw [none, List.map_nil, List.append_nil] at h
      obtain ⟨seen, rfl, unmarked, rfl⟩ :=
        of_occurrenceHere? single (Option.mem_toList.1 (List.mem_of_getLast? h))
      rw [seen, Nesting.step_of_not_isMark rfl unmarked] at none
      exact avoids_of_eq_nil simple none
    · rw [List.getLast?_append_of_ne_nil _ (by simpa using none), List.getLast?_map,
        Option.map_eq_some_iff] at h
      obtain ⟨o, found, rfl⟩ := h
      have inner := ih found
      exact inner

theorem getLast?_occurrencesFrom_append
    (h : (occurrencesFrom tokens (operand || a.any (!isBlank ·)) (n.scan a) 0 r).getLast? =
      some o) :
    (occurrencesFrom tokens operand n 0 (a ++ r)).getLast? = some (o.behind a) := by
  induction a generalizing operand n with
  | nil =>
    rw [List.any_nil, Bool.or_false] at h
    exact h
  | cons c a ih =>
    rw [List.any_cons, ← Bool.or_assoc, Nesting.scan_cons] at h
    have further := ih h
    rw [List.cons_append, occurrencesFrom_cons_single single, List.getLast?_append,
      List.getLast?_map, further]
    rfl

end Single

/-! ### Behind the first character -/

/-- Whether no character of a class stands at the top level behind the first character, which no
text is cut at. -/
def Free (sep : Char → Bool) : List Char → Prop
  | [] => True
  | c :: r => (Nesting.top.step c).Avoids sep r

section Free

variable {b : List Char} {sep other : Char → Bool}

theorem free_of_avoids (h : Nesting.top.Avoids sep cs) : Free sep cs := by
  cases cs with
  | nil => trivial
  | cons c r => exact h.2

theorem free_append (ne : a ≠ []) :
    Free sep (a ++ b) ↔ Free sep a ∧ (Nesting.top.scan a).Avoids sep b := by
  obtain ⟨c, a, rfl⟩ := List.exists_cons_of_ne_nil ne
  exact Nesting.avoids_append

theorem Free.mono (h : Free sep cs) (narrower : ∀ c, sep c = false → other c = false) :
    Free other cs := by
  cases cs with
  | nil => trivial
  | cons c r => exact Nesting.Avoids.mono h narrower

variable (simple : Simple tokens) (solid : isBlank c = false)
  (short : ∀ t ∈ tokens, t.head? = some c → t.length = 1)

include simple solid short

theorem findToken?_eq_none_iff :
    findToken? tokens last (c :: r) = none ↔ Free (isToken tokens) (c :: r) := by
  have nothing : findToken? tokens last (c :: r) = none ↔ occurrences tokens (c :: r) = [] := by
    unfold findToken?
    split
    · exact List.getLast?_eq_none_iff
    · exact List.head?_eq_none_iff
  rw [nothing, occurrences_cons solid short simple.nil_not_mem, List.map_eq_nil_iff]
  exact ⟨avoids_of_eq_nil simple, occurrencesFrom_eq_nil simple⟩

theorem free_left_of_findToken? (h : findToken? tokens false (c :: r) = some o) :
    Free (isToken tokens) o.left := by
  change (occurrences tokens (c :: r)).head? = some o at h
  rw [occurrences_cons solid short simple.nil_not_mem, List.head?_map,
    Option.map_eq_some_iff] at h
  obtain ⟨o, found, rfl⟩ := h
  exact avoids_of_head? simple found

end Free

/-- A text is cut at the first token if none begins in front of it. -/
theorem findToken?_append (nil : [] ∉ tokens) (ends : Nesting.top.scan a = .top)
    (avoids : Nesting.top.Avoids (begins tokens) a) (operand : a.any (!isBlank ·))
    (unmarked : isMark c = false) (found : longestToken? tokens (c :: r) = some t) :
    findToken? tokens false (a ++ c :: r) = some ⟨a, t, (c :: r).drop t.length⟩ := by
  have first := head?_occurrencesFrom (n := .top) rfl unmarked found
  change (occurrencesFrom tokens false .top 0 (a ++ c :: r)).head? = _
  rw [occurrencesFrom_append nil avoids, operand, Bool.or_true, ends, List.head?_map, first]
  simp [Occurrence.behind]

/-- A text is cut at the last token of one character if none stands behind it. -/
theorem findToken?_append_last (single : ∀ t ∈ tokens, t.length = 1) (simple : Simple tokens)
    (ends : Nesting.top.scan a = .top) (operand : a.any (!isBlank ·)) (token : isToken tokens c)
    (avoids : Nesting.top.Avoids (isToken tokens) r) :
    findToken? tokens true (a ++ c :: r) = some ⟨a, [c], r⟩ := by
  have mem : [c] ∈ tokens := List.contains_iff_mem.1 token
  have unmarked := simple.unmarked [c] mem c List.mem_cons_self
  obtain ⟨t, found⟩ := Option.isSome_iff_exists.1
    (longestToken?_isSome mem (show [c] <+: c :: r by simp))
  have here := head?_occurrencesFrom (n := .top) rfl unmarked found
  have only : occurrencesFrom tokens true .top 0 (c :: r) = [⟨[], [c], r⟩] := by
    rw [occurrencesFrom_cons_single single, Bool.true_or,
      Nesting.step_of_not_isMark rfl unmarked, occurrencesFrom_eq_nil simple avoids,
      List.map_nil, List.append_nil] at here ⊢
    cases eq : occurrenceHere? tokens true .top r c with
    | none => simp [eq] at here
    | some o =>
      obtain ⟨_, _, _, rfl⟩ := of_occurrenceHere? single eq
      rfl
  change (occurrencesFrom tokens false .top 0 (a ++ c :: r)).getLast? = _
  have last : (occurrencesFrom tokens false .top 0 (a ++ c :: r)).getLast? =
      some (Occurrence.behind a ⟨[], [c], r⟩) :=
    getLast?_occurrencesFrom_append single (by rw [operand, Bool.or_true, ends, only]; rfl)
  rw [last]
  simp [Occurrence.behind]

end ScopedQuery.Text
