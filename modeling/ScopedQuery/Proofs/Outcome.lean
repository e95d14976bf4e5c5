import Mathlib.Data.List.Forall2
import Mathlib.Tactic.Common

set_option autoImplicit false

namespace ScopedQuery.Outcome

variable {ε α β : Type}

theorem bind_eq_ok {x : Except ε α} {f : α → Except ε β} {b : β} :
    (x >>= f) = .ok b ↔ ∃ a, x = .ok a ∧ f a = .ok b := by
  cases x with
  | error e => simp [bind, Except.bind]
  | ok a => simp [bind, Except.bind]

theorem map_eq_ok {x : Except ε α} {f : α → β} {b : β} :
    x.map f = .ok b ↔ ∃ a, x = .ok a ∧ f a = b := by
  cases x with
  | error e => simp [Except.map]
  | ok a => simp [Except.map]

theorem foldlM_invariant {P : β → Prop} {f : β → α → Except ε β} {xs : List α} {b b' : β}
    (h : xs.foldlM f b = .ok b')
    (step : ∀ x ∈ xs, ∀ b b', P b → f b x = .ok b' → P b') (start : P b) : P b' := by
  induction xs generalizing b with
  | nil =>
    cases h
    exact start
  | cons x xs ih =>
    rw [List.foldlM_cons] at h
    obtain ⟨c, first, rest⟩ := bind_eq_ok.1 h
    exact ih rest (fun y hy => step y (List.mem_cons_of_mem _ hy))
      (step x List.mem_cons_self b c start first)

theorem forM_eq_ok {f : α → Except ε Unit} {xs : List α} :
    xs.forM f = .ok () ↔ ∀ x ∈ xs, f x = .ok () := by
  rw [List.forM_eq_forM]
  induction xs with
  | nil => simp [pure, Except.pure]
  | cons x xs ih =>
    rw [List.forM_cons, bind_eq_ok, List.forall_mem_cons, ← ih]
    constructor
    · rintro ⟨_, first, others⟩
      exact ⟨first, others⟩
    · rintro ⟨first, others⟩
      exact ⟨(), first, others⟩

theorem mapM_eq_ok {f : α → Except ε β} {xs : List α} {ys : List β} :
    xs.mapM f = .ok ys ↔ List.Forall₂ (fun x y => f x = .ok y) xs ys := by
  induction xs generalizing ys with
  | nil =>
    rw [List.mapM_nil, List.forall₂_nil_left_iff]
    exact ⟨fun h => (Except.ok.inj h).symm, fun h => congrArg Except.ok h.symm⟩
  | cons x xs ih =>
    rw [List.mapM_cons, bind_eq_ok, List.forall₂_cons_left_iff]
    constructor
    · rintro ⟨y, first, h⟩
      obtain ⟨zs, rest, h⟩ := bind_eq_ok.1 h
      cases h
      exact ⟨y, zs, first, ih.1 rest, rfl⟩
    · rintro ⟨y, zs, first, rest, rfl⟩
      exact ⟨y, first, bind_eq_ok.2 ⟨zs, ih.2 rest, rfl⟩⟩

theorem mem_of_mapM {f : α → Except ε β} {xs : List α} {ys : List β} (h : xs.mapM f = .ok ys)
    {y : β} (hy : y ∈ ys) : ∃ x ∈ xs, f x = .ok y := by
  induction xs generalizing ys with
  | nil =>
    rw [List.mapM_nil] at h
    cases h
    cases hy
  | cons x xs ih =>
    rw [List.mapM_cons] at h
    obtain ⟨z, first, h⟩ := bind_eq_ok.1 h
    obtain ⟨zs, rest, h⟩ := bind_eq_ok.1 h
    cases h
    rcases List.mem_cons.1 hy with rfl | hy
    · exact ⟨x, List.mem_cons_self, first⟩
    · obtain ⟨w, mem, found⟩ := ih rest hy
      exact ⟨w, List.mem_cons_of_mem _ mem, found⟩

section Pairwise

variable {R : α → β → Prop} {xs : List α} {ys : List β}

theorem exists_right {x : α} (h : List.Forall₂ R xs ys) (mem : x ∈ xs) : ∃ y ∈ ys, R x y := by
  induction h with
  | nil => cases mem
  | cons first _ ih =>
    rcases List.mem_cons.1 mem with rfl | mem
    · exact ⟨_, List.mem_cons_self, first⟩
    · obtain ⟨y, there, related⟩ := ih mem
      exact ⟨y, List.mem_cons_of_mem _ there, related⟩

theorem exists_left {y : β} (h : List.Forall₂ R xs ys) (mem : y ∈ ys) : ∃ x ∈ xs, R x y :=
  exists_right (List.Forall₂.flip h) mem

theorem exists_forall₂ (h : ∀ x ∈ xs, ∃ y, R x y) : ∃ ys, List.Forall₂ R xs ys := by
  induction xs with
  | nil => exact ⟨[], .nil⟩
  | cons x xs ih =>
    obtain ⟨⟨y, first⟩, others⟩ := List.forall_mem_cons.1 h
    obtain ⟨ys, rest⟩ := ih others
    exact ⟨y :: ys, .cons first rest⟩

/-- Where each member says the same as its partner, some member says it if some partner does. -/
theorem exists_iff {P : α → Prop} {Q : β → Prop} (h : List.Forall₂ R xs ys)
    (same : ∀ x ∈ xs, ∀ y ∈ ys, R x y → (Q y ↔ P x)) : (∃ y ∈ ys, Q y) ↔ ∃ x ∈ xs, P x := by
  constructor
  · rintro ⟨y, mem, said⟩
    obtain ⟨x, there, related⟩ := exists_left h mem
    exact ⟨x, there, (same x there y mem related).1 said⟩
  · rintro ⟨x, mem, said⟩
    obtain ⟨y, there, related⟩ := exists_right h mem
    exact ⟨y, there, (same x mem y there related).2 said⟩

end Pairwise

end ScopedQuery.Outcome
