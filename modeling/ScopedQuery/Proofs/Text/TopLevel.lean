import Mathlib.Data.List.Basic
import ScopedQuery.Proofs.Text.Lead

set_option autoImplicit false

namespace ScopedQuery.Text

theorem doubling_cons (q c : Char) (cs : List Char) :
    doubling q (c :: cs) = (if c == q then [q, q] else [c]) ++ doubling q cs := rfl

theorem doubling_eq_self {q : Char} {cs : List Char} (h : ∀ x ∈ cs, x ≠ q) :
    doubling q cs = cs := by
  induction cs with
  | nil => rfl
  | cons x cs ih =>
    obtain ⟨ne, others⟩ := List.forall_mem_cons.1 h
    rw [doubling_cons, ih others, if_neg (by simpa using ne)]
    rfl

namespace Nesting

variable {n : Nesting} {a b cs : List Char} {c q : Char} {sep other : Char → Bool}

/-- The standing after a text. -/
def scan (n : Nesting) (cs : List Char) : Nesting := cs.foldl step n

@[simp] theorem scan_nil : n.scan [] = n := rfl

@[simp] theorem scan_cons : n.scan (c :: cs) = (n.step c).scan cs := rfl

@[simp] theorem scan_append : n.scan (a ++ b) = (n.scan a).scan b := List.foldl_append

/-- Whether a scan of a text meets no character of a class at the top level. -/
def Avoids (sep : Char → Bool) (n : Nesting) : List Char → Prop
  | [] => True
  | c :: cs => (n.isTop → sep c = false) ∧ Avoids sep (n.step c) cs

theorem avoids_append : n.Avoids sep (a ++ b) ↔ n.Avoids sep a ∧ (n.scan a).Avoids sep b := by
  induction a generalizing n with
  | nil => simp [Avoids]
  | cons c a ih => rw [List.cons_append, Avoids, Avoids, ih, and_assoc, scan_cons]

theorem Avoids.mono (h : n.Avoids sep cs) (narrower : ∀ c, sep c = false → other c = false) :
    n.Avoids other cs := by
  induction cs generalizing n with
  | nil => trivial
  | cons c cs ih => exact ⟨fun top => narrower c (h.1 top), ih h.2⟩

theorem avoids_of_forall (h : ∀ c ∈ cs, sep c = false) : n.Avoids sep cs := by
  induction cs generalizing n with
  | nil => trivial
  | cons c cs ih =>
    obtain ⟨first, rest⟩ := List.forall_mem_cons.1 h
    exact ⟨fun _ => first, ih rest⟩

theorem step_of_not_isMark (top : n.isTop) (h : isMark c = false) : n.step c = n := by
  rw [eq_top top]
  simp only [isMark, Bool.or_eq_false_iff] at h
  simp [step, Nesting.top, h]

theorem scan_of_not_isMark (top : n.isTop) (h : ∀ c ∈ cs, isMark c = false) : n.scan cs = n := by
  induction cs with
  | nil => rfl
  | cons c cs ih =>
    obtain ⟨first, rest⟩ := List.forall_mem_cons.1 h
    rw [scan_cons, step_of_not_isMark top first, ih rest]

def deeper (n : Nesting) : Nesting := ⟨n.depth + 1, n.quote⟩

theorem isTop_deeper : n.deeper.isTop = false := by simp [isTop, deeper]

theorem step_deeper (h : n.isTop → (c == ')') = false) : n.deeper.step c = (n.step c).deeper := by
  obtain ⟨depth, quote⟩ := n
  cases quote with
  | some q =>
    simp only [step, deeper]
    split <;> rfl
  | none =>
    simp only [step, deeper]
    split
    · rfl
    split
    · rfl
    split
    · next closes =>
      -- A parenthesis that closes is not met at the top level, so there is one to close.
      have inner : depth ≠ 0 := by
        rintro rfl
        exact absurd (h rfl) (by simp [closes])
      simp only [Nesting.mk.injEq, and_true]
      omega
    · rfl

theorem scan_deeper (h : n.Avoids (· == ')') cs) : n.deeper.scan cs = (n.scan cs).deeper := by
  induction cs generalizing n with
  | nil => rfl
  | cons c cs ih => rw [scan_cons, scan_cons, step_deeper h.1, ih h.2]

theorem avoids_deeper (h : n.Avoids (· == ')') cs) : n.deeper.Avoids sep cs := by
  induction cs generalizing n with
  | nil => trivial
  | cons c cs ih =>
    refine ⟨fun top => ?_, ?_⟩
    · rw [isTop_deeper] at top
      cases top
    · rw [step_deeper h.1]
      exact ih h.2

theorem scan_doubling {depth : Nat} (quote : isQuote q) (cs : List Char) :
    Nesting.scan ⟨depth, some q⟩ (doubling q cs) = ⟨depth, some q⟩ := by
  induction cs with
  | nil => rfl
  | cons c cs ih =>
    rw [doubling_cons, scan_append]
    split
    · simpa [step, quote] using ih
    · next other => simpa [step, other] using ih

theorem avoids_doubling {depth : Nat} (quote : isQuote q) (apart : sep q = false)
    (cs : List Char) : Nesting.Avoids sep ⟨depth, some q⟩ (doubling q cs) := by
  induction cs with
  | nil => trivial
  | cons c cs ih =>
    rw [doubling_cons, avoids_append]
    split
    · simpa [Avoids, step, quote, apart] using ih
    · next other => simpa [Avoids, step, other, isTop] using ih

end Nesting

variable {a b cs inside rest : List Char} {c q : Char} {sep : Char → Bool}

/-- Whether a text closes all that it opens, and nothing else. -/
structure Balanced (cs : List Char) : Prop where
  inner : Nesting.top.Avoids (· == ')') cs
  ends : Nesting.top.scan cs = .top

theorem balanced_nil : Balanced [] := ⟨trivial, rfl⟩

theorem Balanced.append (ha : Balanced a) (hb : Balanced b) : Balanced (a ++ b) where
  inner := Nesting.avoids_append.2 ⟨ha.inner, by rw [ha.ends]; exact hb.inner⟩
  ends := by rw [Nesting.scan_append, ha.ends, hb.ends]

theorem balanced_of_not_isMark (h : ∀ c ∈ cs, isMark c = false) : Balanced cs where
  inner := Nesting.avoids_of_forall fun c mem => by
    have unmarked := h c mem
    simp only [isMark, Bool.or_eq_false_iff] at unmarked
    exact unmarked.2
  ends := Nesting.scan_of_not_isMark rfl h

theorem step_parenthesis : Nesting.top.step '(' = Nesting.top.deeper := rfl

theorem step_deeper_parenthesis : Nesting.top.deeper.step ')' = .top := rfl

theorem avoids_parenthesized (h : Balanced cs) (apart : sep '(' = false) :
    Nesting.top.Avoids sep ('(' :: (cs ++ [')'])) := by
  refine ⟨fun _ => apart, ?_⟩
  rw [step_parenthesis, Nesting.avoids_append, Nesting.scan_deeper h.inner, h.ends]
  refine ⟨Nesting.avoids_deeper h.inner, fun top => ?_, trivial⟩
  rw [Nesting.isTop_deeper] at top
  cases top

theorem Balanced.parenthesized (h : Balanced cs) : Balanced ('(' :: (cs ++ [')'])) where
  inner := avoids_parenthesized h rfl
  ends := by
    rw [Nesting.scan_cons, step_parenthesis, Nesting.scan_append, Nesting.scan_deeper h.inner,
      h.ends, Nesting.scan_cons, step_deeper_parenthesis, Nesting.scan_nil]

theorem step_quote (quote : isQuote q) : Nesting.top.step q = ⟨0, some q⟩ := by
  simp [Nesting.step, Nesting.top, quote]

theorem avoids_quoted (quote : isQuote q) (apart : sep q = false) (cs : List Char) :
    Nesting.top.Avoids sep (q :: (doubling q cs ++ [q])) := by
  refine ⟨fun _ => apart, ?_⟩
  rw [step_quote quote, Nesting.avoids_append]
  exact ⟨Nesting.avoids_doubling quote apart cs, fun _ => apart, trivial⟩

theorem balanced_quoted (quote : isQuote q) (cs : List Char) :
    Balanced (q :: (doubling q cs ++ [q])) where
  inner := by
    refine avoids_quoted quote ?_ cs
    rw [beq_eq_false_iff_ne]
    rintro rfl
    exact absurd quote (by decide)
  ends := by
    rw [Nesting.scan_cons, step_quote quote, Nesting.scan_append, Nesting.scan_doubling quote]
    simp [Nesting.step, Nesting.top]

theorem closingFrom_eq_some {n : Nesting} : closingFrom n cs = some (inside, rest) ↔
    n.Avoids (· == ')') inside ∧ (n.scan inside).isTop ∧ cs = inside ++ ')' :: rest := by
  induction cs generalizing n inside with
  | nil => simp [closingFrom]
  | cons c cs ih =>
    rw [closingFrom]
    by_cases closes : (n.isTop && c == ')') = true
    · rw [if_pos closes]
      rw [Bool.and_eq_true, beq_iff_eq] at closes
      obtain ⟨top, rfl⟩ := closes
      constructor
      · rintro ⟨⟩
        exact ⟨trivial, top, rfl⟩
      · rintro ⟨avoids, _, eq⟩
        cases inside with
        | nil =>
          cases eq
          rfl
        | cons x inside =>
          cases eq
          exact absurd (avoids.1 top) (by decide)
    · rw [if_neg closes]
      have passes : n.isTop → (c == ')') = false := by simpa using closes
      constructor
      · intro h
        obtain ⟨⟨inner, behind⟩, found, eq⟩ := Option.map_eq_some_iff.1 h
        cases eq
        obtain ⟨avoids, top, rfl⟩ := ih.1 found
        exact ⟨⟨passes, avoids⟩, top, rfl⟩
      · rintro ⟨avoids, top, eq⟩
        cases inside with
        | nil =>
          cases eq
          exact absurd (passes top) (by decide)
        | cons x inside =>
          cases eq
          rw [ih.2 ⟨avoids.2, top, rfl⟩]
          rfl

theorem closing?_eq_some : closing? cs = some (inside, rest) ↔
    Balanced inside ∧ cs = inside ++ ')' :: rest := by
  rw [closing?, closingFrom_eq_some]
  constructor
  · exact fun ⟨avoids, top, eq⟩ => ⟨⟨avoids, Nesting.eq_top top⟩, eq⟩
  · exact fun ⟨balanced, eq⟩ => ⟨balanced.inner, by rw [balanced.ends]; rfl, eq⟩

theorem partsFrom_of_avoids {n : Nesting} {mark : Char} (h : n.Avoids (· == mark) a) :
    partsFrom mark n a = [a] := by
  induction a generalizing n with
  | nil => rfl
  | cons c a ih =>
    have passes : (n.isTop && c == mark && !isMark c) = false := by
      cases top : n.isTop with
      | false => rfl
      | true => simp [h.1 top]
    rw [partsFrom, passes, if_neg Bool.false_ne_true, ih h.2]

theorem partsFrom_append {n : Nesting} {mark : Char} (separates : isMark mark = false)
    (h : n.Avoids (· == mark) a) (ends : n.scan a = .top) (r : List Char) :
    partsFrom mark n (a ++ mark :: r) = a :: partsFrom mark .top r := by
  induction a generalizing n with
  | nil =>
    rw [Nesting.scan_nil] at ends
    rw [List.nil_append, partsFrom, ends, separates]
    simp [Nesting.isTop, Nesting.top]
  | cons c a ih =>
    have passes : (n.isTop && c == mark && !isMark c) = false := by
      cases top : n.isTop with
      | false => rfl
      | true => simp [h.1 top]
    rw [List.cons_append, partsFrom, passes, if_neg Bool.false_ne_true, ih h.2 ends]

theorem parts_intercalate {mark : Char} (separates : isMark mark = false)
    {texts : List (List Char)} (ne : texts ≠ [])
    (each : ∀ a ∈ texts, Balanced a ∧ Nesting.top.Avoids (· == mark) a) :
    parts mark ([mark].intercalate texts) = texts := by
  induction texts with
  | nil => exact absurd rfl ne
  | cons a texts ih =>
    obtain ⟨⟨balanced, avoids⟩, others⟩ := List.forall_mem_cons.1 each
    cases texts with
    | nil => simpa [List.intercalate, parts] using partsFrom_of_avoids avoids
    | cons b texts =>
      have rest := ih (List.cons_ne_nil _ _) others
      rw [List.intercalate_cons_of_ne_nil (List.cons_ne_nil _ _), List.append_assoc,
        List.singleton_append, parts, partsFrom_append separates avoids balanced.ends]
      exact congrArg (a :: ·) rest

end ScopedQuery.Text
