import Mathlib.Data.List.Basic
import ScopedQuery.Text.Nesting

set_option autoImplicit false

namespace ScopedQuery.Text

def lead? (cs : List Char) : Option Char := cs.find? fun c => !isBlank c

theorem lead?_trimLeft (cs : List Char) : (trimLeft cs).head? = lead? cs := by
  induction cs with
  | nil => rfl
  | cons c cs ih =>
    unfold trimLeft lead? at ih ⊢
    by_cases blank : isBlank c
    · simpa [blank] using ih
    · simp [blank]

theorem head?_trimRight {c : Char} {cs : List Char} (h : isBlank c = false) :
    (trimRight (c :: cs)).head? = some c := by
  have stop : ∀ r : List Char, ((r ++ [c]).dropWhile isBlank).reverse.head? = some c := by
    intro r
    induction r with
    | nil => simp [h]
    | cons x r ih =>
      rw [List.cons_append, List.dropWhile_cons]
      split
      · exact ih
      · simp
  rw [trimRight, List.reverse_cons]
  exact stop _

theorem head?_trim (cs : List Char) : (trim cs).head? = lead? cs := by
  have left := lead?_trimLeft cs
  unfold trim
  cases eq : trimLeft cs with
  | nil =>
    rw [eq] at left
    exact left
  | cons c r =>
    have solid : isBlank c = false := by
      have found := List.find?_some (left.symm.trans (by rw [eq]; rfl) : lead? cs = some c)
      simpa using found
    rw [head?_trimRight solid, ← left, eq]
    rfl

theorem lead?_of_head? {cs : List Char} {c : Char} (h : cs.head? = some c)
    (solid : isBlank c = false) : lead? cs = some c := by
  obtain ⟨r, rfl⟩ := List.head?_eq_some_iff.1 h
  simp [lead?, solid]

theorem lead?_trim (cs : List Char) : lead? (trim cs) = lead? cs := by
  have head := head?_trim cs
  cases found : lead? cs with
  | none =>
    rw [found, List.head?_eq_none_iff] at head
    rw [head]
    rfl
  | some c =>
    have solid : isBlank c = false := by simpa using List.find?_some found
    exact lead?_of_head? (head.trans found) solid

theorem lead?_append {a : List Char} (b : List Char) {c : Char} (h : lead? a = some c) :
    lead? (a ++ b) = some c := by
  rw [lead?, List.find?_append]
  simp [show a.find? (fun c => !isBlank c) = some c from h]

theorem isMark_of_isBlank {c : Char} (h : isBlank c) : isMark c = false := by
  have apart : ∀ m : Char, isBlank m = false → c ≠ m := by
    rintro m solid rfl
    rw [h] at solid
    cases solid
  unfold isMark isQuote
  simp only [Bool.or_eq_false_iff, beq_eq_false_iff_ne]
  exact ⟨⟨⟨⟨apart _ (by decide), apart _ (by decide)⟩, apart _ (by decide)⟩, apart _ (by decide)⟩,
    apart _ (by decide)⟩

theorem begins_of_longestToken? {tokens : List (List Char)} {cs t : List Char}
    (h : longestToken? tokens cs = some t) : t <+: cs := by
  have general : ∀ (ts : List (List Char)) (best : Option (List Char)),
      (∀ u, best = some u → u <+: cs) →
      ts.foldl (fun best t => if t.isPrefixOf cs && (best.map List.length).getD 0 ≤ t.length
        then some t else best) best = some t → t <+: cs := by
    intro ts
    induction ts with
    | nil => intro best known h; exact known t h
    | cons u us ih =>
      intro best known h
      rw [List.foldl_cons] at h
      refine ih _ ?_ h
      split
      · next begins =>
        rintro v ⟨⟩
        rw [Bool.and_eq_true] at begins
        exact List.isPrefixOf_iff_prefix.1 begins.1
      · exact known
  exact general tokens none (by simp) h

theorem longestToken?_isSome {tokens : List (List Char)} {cs t : List Char} (mem : t ∈ tokens)
    (begins : t <+: cs) : (longestToken? tokens cs).isSome := by
  have general : ∀ (ts : List (List Char)) (best : Option (List Char)),
      (t ∈ ts ∨ best.isSome) →
      (ts.foldl (fun best t => if t.isPrefixOf cs && (best.map List.length).getD 0 ≤ t.length
        then some t else best) best).isSome := by
    intro ts
    induction ts with
    | nil => intro best h; simpa using h
    | cons u us ih =>
      intro best h
      rw [List.foldl_cons]
      refine ih _ ?_
      rcases h with mem | some
      · rcases List.mem_cons.1 mem with rfl | mem
        · right
          cases best with
          | none => simp [List.isPrefixOf_iff_prefix.2 begins]
          | some b => split <;> rfl
        · exact .inl mem
      · right
        split
        · rfl
        · exact some
  exact general tokens none (.inl mem)

variable {tokens : List (List Char)}

theorem text_of_mem_occurrencesFrom {operand : Bool} {n : Nesting} {skip : Nat} {cs : List Char}
    {o : Occurrence} (h : o ∈ occurrencesFrom tokens operand n skip cs) :
    o.token ∈ tokens ∧ o.left ++ o.token ++ o.right = cs := by
  induction cs generalizing operand n skip o with
  | nil => cases skip <;> simp [occurrencesFrom] at h
  | cons c r ih =>
    have further : ∀ (operand : Bool) (n : Nesting) (skip : Nat),
        o ∈ (occurrencesFrom tokens operand n skip r).map
          (fun p => { p with left := c :: p.left }) →
        o.token ∈ tokens ∧ o.left ++ o.token ++ o.right = c :: r := by
      intro operand n skip h
      obtain ⟨p, found, rfl⟩ := List.mem_map.1 h
      obtain ⟨mem, text⟩ := ih found
      exact ⟨mem, by simp [← text]⟩
    cases skip with
    | succ k =>
      simp only [occurrencesFrom] at h
      exact further _ _ _ h
    | zero =>
      simp only [occurrencesFrom] at h
      split at h
      · split at h
        · exact further _ _ _ h
        · next t found =>
          split at h
          · rcases List.mem_cons.1 h with rfl | h
            · obtain ⟨rest, text⟩ := begins_of_longestToken? found
              refine ⟨mem_of_longestToken? found, ?_⟩
              rw [← text]
              simp
            · exact further _ _ _ h
          · exact further _ _ _ h
      · exact further _ _ _ h

theorem Nesting.eq_top {n : Nesting} (h : n.isTop) : n = .top := by
  obtain ⟨depth, quote⟩ := n
  simp only [isTop, Bool.and_eq_true, Option.isNone_iff_eq_none, beq_iff_eq] at h
  rw [Nesting.top, h.1, h.2]

/-- Behind an operand, a token that is the first character but for blanks is found. -/
theorem occurrencesFrom_ne_nil {x : Char} (mem : [x] ∈ tokens) (plain : isMark x = false)
    {cs : List Char} (h : lead? cs = some x) :
    occurrencesFrom tokens true .top 0 cs ≠ [] := by
  induction cs with
  | nil => cases h
  | cons c r ih =>
    by_cases blank : isBlank c
    · have rest : lead? r = some x := by simpa [lead?, blank] using h
      have top : (Nesting.top.isTop && !isMark c) = true := by
        rw [isMark_of_isBlank blank]
        rfl
      simp only [occurrencesFrom, top, ↓reduceIte, Bool.true_or]
      split
      · simpa using ih rest
      · simp
    · obtain rfl : c = x := by simpa [lead?, blank] using h
      have top : (Nesting.top.isTop && !isMark c) = true := by
        rw [plain]
        rfl
      have found : (longestToken? tokens (c :: r)).isSome :=
        longestToken?_isSome mem (by simp)
      simp only [occurrencesFrom, top, ↓reduceIte]
      split
      · next none => rw [none] at found; cases found
      · simp

/-- Behind the last of the tokens no token follows, but for blanks in between. -/
theorem lead?_ne_of_getLast? (single : ∀ t ∈ tokens, t.length = 1) {x : Char}
    (mem : [x] ∈ tokens) (plain : isMark x = false) {operand : Bool} {n : Nesting} {skip : Nat}
    {cs : List Char} {o : Occurrence}
    (h : (occurrencesFrom tokens operand n skip cs).getLast? = some o) :
    lead? o.right ≠ some x := by
  induction cs generalizing operand n skip o with
  | nil => cases skip <;> simp [occurrencesFrom] at h
  | cons c r ih =>
    have further : ∀ (operand : Bool) (n : Nesting) (skip : Nat),
        ((occurrencesFrom tokens operand n skip r).map
          (fun p => { p with left := c :: p.left })).getLast? = some o →
        lead? o.right ≠ some x := by
      intro operand n skip h
      rw [List.getLast?_map, Option.map_eq_some_iff] at h
      obtain ⟨p, last, rfl⟩ := h
      exact ih (o := p) last
    -- Either the occurrence is found further on, or it stands here and nothing is found behind it.
    cases skip with
    | succ k =>
      simp only [occurrencesFrom] at h
      exact further _ _ _ h
    | zero =>
      simp only [occurrencesFrom] at h
      split at h
      · next top =>
        rw [Bool.and_eq_true] at top
        split at h
        · exact further _ _ _ h
        · next t found =>
          have one := single t (mem_of_longestToken? found)
          split at h
          · next seen =>
            rw [one, Nesting.eq_top top.1, seen, Bool.true_or] at h
            cases rest : occurrencesFrom tokens true .top 0 r with
            | nil =>
              rw [rest] at h
              cases h
              intro lead
              have behind : lead? r = some x := by simpa [one] using lead
              exact occurrencesFrom_ne_nil mem plain behind rest
            | cons p ps =>
              refine further true .top 0 ?_
              rw [rest] at h ⊢
              simpa only [List.map_cons, List.getLast?_cons_cons] using h
          · exact further _ _ _ h
      · exact further _ _ _ h

end ScopedQuery.Text
