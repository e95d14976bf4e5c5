import Mathlib.Logic.ExistsUnique
import Mathlib.Tactic.Common

set_option autoImplicit false

namespace ScopedQuery.Operator

class Ranked (ω : Type) where
  rank : ω → Nat
  rank_pos : ∀ op, 0 < rank op

inductive Tree (α ω : Type) where
  | leaf (operand : α)
  | join (left : Tree α ω) (op : ω) (right : Tree α ω)

namespace Tree

variable {α ω : Type}

def first : Tree α ω → α
  | leaf a => a
  | join left _ _ => left.first

def links : Tree α ω → List (ω × α)
  | leaf _ => []
  | join left op right => left.links ++ (op, right.first) :: right.links

def operands (t : Tree α ω) : List α := t.first :: t.links.map Prod.snd

def map {β : Type} (f : α → β) : Tree α ω → Tree β ω
  | leaf a => leaf (f a)
  | join left op right => join (left.map f) op (right.map f)

theorem operands_join (left right : Tree α ω) (op : ω) :
    (join left op right).operands = left.operands ++ right.operands := by
  simp [operands, first, links]

section Map

variable {β γ : Type} {f g : α → β}

theorem first_map (t : Tree α ω) : (t.map f).first = f t.first := by
  induction t with
  | leaf a => rfl
  | join left op right ihl _ => exact ihl

theorem links_map (t : Tree α ω) : (t.map f).links = t.links.map (Prod.map id f) := by
  induction t with
  | leaf a => rfl
  | join left op right ihl ihr => simp [map, links, ihl, ihr, first_map]

theorem map_map (t : Tree α ω) (h : β → γ) : (t.map f).map h = t.map fun a => h (f a) := by
  induction t with
  | leaf a => rfl
  | join left op right ihl ihr => rw [map, map, map, ihl, ihr]

theorem map_congr {t : Tree α ω} (same : ∀ a ∈ t.operands, f a = g a) : t.map f = t.map g := by
  induction t with
  | leaf a => rw [map, map, same a (List.mem_singleton_self a)]
  | join left op right ihl ihr =>
    rw [operands_join, List.forall_mem_append] at same
    rw [map, map, ihl same.1, ihr same.2]

end Map

variable [Ranked ω]

/-- How loosely the outermost operator binds; an operand alone binds most tightly. -/
def rank : Tree α ω → Nat
  | leaf _ => 0
  | join _ op _ => Ranked.rank op

/-- Whether a tree is the one of the standard grammar. -/
def Standard : Tree α ω → Prop
  | leaf _ => True
  | join left op right => left.Standard ∧ right.Standard ∧
      left.rank ≤ Ranked.rank op ∧ right.rank < Ranked.rank op

def push : Tree α ω → ω → α → Tree α ω
  | leaf b, op, a => join (leaf b) op (leaf a)
  | join left o right, op, a =>
    if Ranked.rank o ≤ Ranked.rank op then join (join left o right) op (leaf a)
    else join left o (right.push op a)

def extend (t : Tree α ω) (links : List (ω × α)) : Tree α ω :=
  links.foldl (fun t l => t.push l.1 l.2) t

variable {t left right : Tree α ω} {op o : ω} {a : α} {ls : List (ω × α)}

theorem push_of_le (h : t.rank ≤ Ranked.rank op) : t.push op a = join t op (leaf a) := by
  cases t with
  | leaf b => rfl
  | join left o right => exact if_pos h

theorem push_join_of_lt (h : Ranked.rank op < Ranked.rank o) :
    (join left o right).push op a = join left o (right.push op a) :=
  if_neg (Nat.not_le.2 h)

theorem first_push (t : Tree α ω) : (t.push op a).first = t.first := by
  induction t with
  | leaf b => rfl
  | join left o right _ _ =>
    rw [push]
    split <;> rfl

theorem links_push (t : Tree α ω) : (t.push op a).links = t.links ++ [(op, a)] := by
  induction t with
  | leaf b => rfl
  | join left o right _ ih =>
    rw [push]
    split
    · rfl
    · next _ =>
      have same : (right.push op a).first = right.first := first_push right
      simp [links, ih, same]

theorem rank_push_lt {k : Nat} (tree : t.rank < k) (operator : Ranked.rank op < k) :
    (t.push op a).rank < k := by
  cases t with
  | leaf b => exact operator
  | join left o right =>
    rw [push]
    split
    · exact operator
    · exact tree

theorem Standard.push (h : t.Standard) (op : ω) (a : α) : (t.push op a).Standard := by
  induction t with
  | leaf b => exact ⟨trivial, trivial, Nat.zero_le _, Ranked.rank_pos op⟩
  | join left o right _ ih =>
    obtain ⟨hl, hr, le, lt⟩ := h
    by_cases tighter : Ranked.rank o ≤ Ranked.rank op
    · rw [push_of_le (show (join left o right).rank ≤ Ranked.rank op from tighter)]
      exact ⟨⟨hl, hr, le, lt⟩, trivial, tighter, Ranked.rank_pos op⟩
    · rw [push_join_of_lt (Nat.not_le.1 tighter)]
      exact ⟨hl, ih hr, le, rank_push_lt lt (Nat.not_le.1 tighter)⟩

theorem extend_append (t : Tree α ω) (front back : List (ω × α)) :
    t.extend (front ++ back) = (t.extend front).extend back :=
  List.foldl_append

theorem extend_cons (t : Tree α ω) (l : ω × α) (ls : List (ω × α)) :
    t.extend (l :: ls) = (t.push l.1 l.2).extend ls := rfl

theorem first_extend (t : Tree α ω) : (t.extend ls).first = t.first := by
  induction ls generalizing t with
  | nil => rfl
  | cons l ls ih => rw [extend_cons, ih, first_push]

theorem links_extend (t : Tree α ω) : (t.extend ls).links = t.links ++ ls := by
  induction ls generalizing t with
  | nil => exact (List.append_nil _).symm
  | cons l ls ih => rw [extend_cons, ih, links_push, List.append_assoc, List.singleton_append]

theorem Standard.extend (h : t.Standard) : (t.extend ls).Standard := by
  induction ls generalizing t with
  | nil => exact h
  | cons l ls ih => exact ih (h.push l.1 l.2)

theorem extend_join (tighter : ∀ l ∈ ls, Ranked.rank l.1 < Ranked.rank o) :
    (join left o right).extend ls = join left o (right.extend ls) := by
  induction ls generalizing right with
  | nil => rfl
  | cons l ls ih =>
    obtain ⟨first, others⟩ := List.forall_mem_cons.1 tighter
    rw [extend_cons, push_join_of_lt first, ih others, extend_cons]

theorem Standard.rank_le_of_mem (h : t.Standard) : ∀ l ∈ t.links, Ranked.rank l.1 ≤ t.rank := by
  induction t with
  | leaf a => nofun
  | join left op right ihl ihr =>
    obtain ⟨hl, hr, le, lt⟩ := h
    intro l mem
    rcases List.mem_append.1 mem with front | back
    · exact Nat.le_trans (ihl hl l front) le
    rcases List.mem_cons.1 back with rfl | back
    · exact Nat.le_refl _
    · exact Nat.le_trans (ihr hr l back) (Nat.le_of_lt lt)

theorem Standard.extend_links (h : t.Standard) : (leaf t.first).extend t.links = t := by
  induction t with
  | leaf a => rfl
  | join left op right ihl ihr =>
    obtain ⟨hl, hr, le, lt⟩ := h
    have tighter : ∀ l ∈ right.links, Ranked.rank l.1 < Ranked.rank op := fun l mem =>
      Nat.lt_of_le_of_lt (hr.rank_le_of_mem l mem) lt
    rw [first, links, extend_append, ihl hl, extend_cons, push_of_le le, extend_join tighter,
      ihr hr]

/-- Each sequence of operands and operators has one standard tree. -/
theorem existsUnique_standard (a : α) (ls : List (ω × α)) :
    ∃! t : Tree α ω, t.Standard ∧ t.first = a ∧ t.links = ls := by
  refine ⟨(leaf a).extend ls, ⟨?_, first_extend _, links_extend _⟩, ?_⟩
  · exact Standard.extend trivial
  · rintro t ⟨standard, rfl, rfl⟩
    exact standard.extend_links.symm

def regrouped (t : Tree α ω) : Tree α ω := (leaf t.first).extend t.links

theorem standard_regrouped (t : Tree α ω) : t.regrouped.Standard := Standard.extend trivial

theorem first_regrouped (t : Tree α ω) : t.regrouped.first = t.first := first_extend _

theorem links_regrouped (t : Tree α ω) : t.regrouped.links = t.links := links_extend _

section Map

variable {β : Type} (f : α → β)

theorem rank_map (t : Tree α ω) : (t.map f).rank = t.rank := by
  cases t <;> rfl

theorem Standard.map (h : t.Standard) : (t.map f).Standard := by
  induction t with
  | leaf a => trivial
  | join left op right ihl ihr =>
    obtain ⟨hl, hr, le, lt⟩ := h
    refine ⟨ihl hl, ihr hr, ?_, ?_⟩
    · rwa [rank_map]
    · rwa [rank_map]

theorem map_regrouped (t : Tree α ω) : t.regrouped.map f = (t.map f).regrouped := by
  have standard := t.standard_regrouped.map f
  rw [← standard.extend_links, first_map, links_map, first_regrouped, links_regrouped,
    ← first_map (f := f), ← links_map]
  rfl

end Map

end Tree

end ScopedQuery.Operator
