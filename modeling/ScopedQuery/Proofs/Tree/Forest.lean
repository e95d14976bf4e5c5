import Mathlib.Data.List.Nodup
import Mathlib.Tactic.Common
import ScopedQuery.Tree.Bounds

set_option autoImplicit false

/-!
Ordered forests, apart from the way they are stored, and the numbers that a depth-first walk gives
their nodes. What the walk numbers inside a node's interval is the forest below the node, and what
it numbers around the interval is the chain of names above the node.
-/

namespace ScopedQuery.Tree

/-- Trees with named nodes, side by side: none, or a tree with the forest below its root, and the
trees behind it. -/
inductive Forest where
  | empty
  | tree (root : String) (below others : Forest)

structure Visit where
  name : String
  enter : Int
  leave : Int
  deriving DecidableEq

def Visit.contains (a b : Visit) : Bool := a.enter < b.enter && b.leave < a.leave

theorem Visit.contains_iff {a b : Visit} :
    a.contains b ↔ a.enter < b.enter ∧ b.leave < a.leave := by
  unfold contains
  rw [Bool.and_eq_true, decide_eq_true_eq, decide_eq_true_eq]

namespace Forest

def names : Forest → List String
  | empty => []
  | tree root below others => root :: (below.names ++ others.names)

/-- The next number after a depth-first walk that begins with a number. Every node takes one number
when the walk comes to it and one when the walk leaves it. -/
def next : Forest → Int → Int
  | empty, n => n
  | tree _ below others, n => others.next (below.next (n + 1) + 1)

def visits : Forest → Int → List Visit
  | empty, _ => []
  | tree root below others, n =>
    ⟨root, n, below.next (n + 1)⟩ ::
      (below.visits (n + 1) ++ others.visits (below.next (n + 1) + 1))

/-- Where a node stands in a forest: the names above it, from its parent to the root, and the forest
below it. -/
inductive Stands : Forest → String → List String → Forest → Prop
  | here (name : String) (below others : Forest) : Stands (tree name below others) name [] below
  | inside {name : String} {above : List String} {under below : Forest} (root : String)
    (others : Forest) (h : Stands below name above under) :
    Stands (tree root below others) name (above ++ [root]) under
  | behind {name : String} {above : List String} {under others : Forest} (root : String)
    (below : Forest) (h : Stands others name above under) :
    Stands (tree root below others) name above under

variable {F under : Forest} {name : String} {above : List String} {v : Visit}

theorem exists_stands (mem : name ∈ F.names) : ∃ above under, F.Stands name above under := by
  induction F with
  | empty => cases mem
  | tree root below others ihBelow ihOthers =>
    rw [names, List.mem_cons, List.mem_append] at mem
    rcases mem with rfl | mem | mem
    · exact ⟨[], below, .here _ _ _⟩
    · obtain ⟨above, under, stands⟩ := ihBelow mem
      exact ⟨_, under, .inside root others stands⟩
    · obtain ⟨above, under, stands⟩ := ihOthers mem
      exact ⟨above, under, .behind root below stands⟩

theorem map_name_visits (F : Forest) (n : Int) : (F.visits n).map Visit.name = F.names := by
  induction F generalizing n with
  | empty => rfl
  | tree root below others ihBelow ihOthers =>
    rw [visits, names, List.map_cons, List.map_append, ihBelow, ihOthers]

theorem le_next (F : Forest) (n : Int) : n ≤ F.next n := by
  induction F generalizing n with
  | empty => exact Int.le_refl n
  | tree root below others ihBelow ihOthers =>
    have inner := ihBelow (n + 1)
    have behind := ihOthers (below.next (n + 1) + 1)
    rw [next]
    omega

/-- A walk numbers with what lies between its first number and the next one after it. -/
theorem bounds_of_mem_visits {n : Int} (mem : v ∈ F.visits n) :
    n ≤ v.enter ∧ v.enter < v.leave ∧ v.leave < F.next n := by
  induction F generalizing n with
  | empty => cases mem
  | tree root below others ihBelow ihOthers =>
    have inner := below.le_next (n + 1)
    have behind := others.le_next (below.next (n + 1) + 1)
    rw [visits, List.mem_cons, List.mem_append] at mem
    rw [next]
    rcases mem with rfl | mem | mem
    · dsimp only
      omega
    · have within := ihBelow mem
      omega
    · have within := ihOthers mem
      omega

theorem pairwise_enter_visits (F : Forest) (n : Int) :
    (F.visits n).Pairwise fun a b => a.enter < b.enter := by
  induction F generalizing n with
  | empty => exact .nil
  | tree root below others ihBelow ihOthers =>
    have inner := below.le_next (n + 1)
    rw [visits, List.pairwise_cons, List.pairwise_append]
    refine ⟨fun v mem => ?_, ihBelow _, ihOthers _, fun a memA b memB => ?_⟩
    · rcases List.mem_append.1 mem with mem | mem
      · have within := bounds_of_mem_visits mem
        dsimp only
        omega
      · have within := bounds_of_mem_visits mem
        dsimp only
        omega
    · have first := bounds_of_mem_visits memA
      have second := bounds_of_mem_visits memB
      omega

/-- The walk of a forest has nothing to do with a visit that lies in front of it or behind it. -/
theorem filter_of_apart {n : Int} (ordered : v.enter < v.leave)
    (apart : v.leave < n ∨ F.next n ≤ v.enter) :
    (F.visits n).filter v.contains = [] ∧ (F.visits n).filter (fun w => w.contains v) = [] := by
  constructor
  all_goals
    rw [List.filter_eq_nil_iff]
    intro w mem inside
    have within := bounds_of_mem_visits mem
    rw [Visit.contains_iff] at inside
    omega

theorem filter_of_around {n : Int} (front : v.enter < n) (back : F.next n ≤ v.leave) :
    (F.visits n).filter v.contains = F.visits n ∧
      (F.visits n).filter (fun w => w.contains v) = [] := by
  constructor
  · rw [List.filter_eq_self]
    intro w mem
    have within := bounds_of_mem_visits mem
    rw [Visit.contains_iff]
    omega
  · rw [List.filter_eq_nil_iff]
    intro w mem inside
    have within := bounds_of_mem_visits mem
    rw [Visit.contains_iff] at inside
    omega

/-- The visit of a node that stands in a forest. What the walk numbers inside of it is the walk of
the forest below, and what it numbers around it are the names above, from the root down. -/
theorem Stands.visit (h : F.Stands name above under) (n : Int) :
    ∃ v ∈ F.visits n, v.name = name ∧
      (F.visits n).filter v.contains = under.visits (v.enter + 1) ∧
      ((F.visits n).filter fun w => w.contains v).map Visit.name = above.reverse := by
  induction h generalizing n with
  | here name below others =>
    have inner := below.le_next (n + 1)
    have itself : Visit.contains ⟨name, n, below.next (n + 1)⟩ ⟨name, n, below.next (n + 1)⟩ =
        false := by simp [Visit.contains]
    obtain ⟨within, noneAround⟩ := filter_of_around (F := below)
      (v := ⟨name, n, below.next (n + 1)⟩) (Int.lt_succ n) (Int.le_refl _)
    obtain ⟨noneBehind, noneBeyond⟩ := filter_of_apart (F := others)
      (v := ⟨name, n, below.next (n + 1)⟩) (n := below.next (n + 1) + 1) (by dsimp only; omega)
      (.inl (Int.lt_succ _))
    refine ⟨⟨name, n, below.next (n + 1)⟩, List.mem_cons_self, rfl, ?_, ?_⟩
    · rw [visits, List.filter_cons, itself, List.filter_append, within, noneBehind]
      simp
    · rw [visits, List.filter_cons, itself, List.filter_append, noneAround, noneBeyond]
      simp
  | @inside name above under below root others h ih =>
    obtain ⟨v, mem, named, inside, around⟩ := ih (n + 1)
    have within := bounds_of_mem_visits mem
    have outer : Visit.contains ⟨root, n, below.next (n + 1)⟩ v := by
      rw [Visit.contains_iff]
      dsimp only
      omega
    have inner : v.contains ⟨root, n, below.next (n + 1)⟩ = false := by
      rw [Bool.eq_false_iff]
      intro impossible
      rw [Visit.contains_iff] at impossible
      dsimp only at impossible
      omega
    obtain ⟨noneBehind, noneBeyond⟩ := filter_of_apart (F := others) (v := v)
      (n := below.next (n + 1) + 1) within.2.1 (.inl (by omega))
    refine ⟨v, List.mem_cons_of_mem _ (List.mem_append_left _ mem), named, ?_, ?_⟩
    · rw [visits, List.filter_cons, inner, List.filter_append, inside, noneBehind]
      simp
    · rw [visits, List.filter_cons, outer, List.filter_append, noneBeyond]
      simp [around]
  | @behind name above under others root below h ih =>
    obtain ⟨v, mem, named, inside, around⟩ := ih (below.next (n + 1) + 1)
    have within := bounds_of_mem_visits mem
    have inner := below.le_next (n + 1)
    have apart : v.contains ⟨root, n, below.next (n + 1)⟩ = false ∧
        Visit.contains ⟨root, n, below.next (n + 1)⟩ v = false := by
      simp only [Bool.eq_false_iff, ne_eq, Visit.contains_iff]
      omega
    obtain ⟨noneInside, noneAround⟩ := filter_of_apart (F := below) (v := v)
      (n := n + 1) within.2.1 (.inr (by omega))
    refine ⟨v, List.mem_cons_of_mem _ (List.mem_append_right _ mem), named, ?_, ?_⟩
    · rw [visits, List.filter_cons, apart.1, List.filter_append, noneInside, inside]
      simp
    · rw [visits, List.filter_cons, apart.2, List.filter_append, noneAround]
      simp [around]

theorem Stands.names_subset (h : F.Stands name above under) :
    name ∈ F.names ∧ under.names ⊆ F.names ∧ above ⊆ F.names := by
  obtain ⟨v, mem, rfl, inside, around⟩ := h.visit 0
  rw [← F.map_name_visits 0, ← under.map_name_visits (v.enter + 1), ← inside]
  refine ⟨List.mem_map_of_mem mem, List.map_subset _ (List.filter_subset_self _),
    fun x listed => ?_⟩
  rw [← List.mem_reverse, ← around] at listed
  exact List.map_subset _ (List.filter_subset_self _) listed

/-- Where names are distinct, a node is below another one exactly if that one is above it. -/
theorem Stands.mem_under_iff {other : String} {above' : List String} {under' : Forest}
    (distinct : F.names.Nodup) (h : F.Stands name above under)
    (h' : F.Stands other above' under') : other ∈ under.names ↔ name ∈ above' := by
  obtain ⟨v, memV, rfl, inside, _⟩ := h.visit 0
  obtain ⟨w, memW, rfl, _, around⟩ := h'.visit 0
  rw [← F.map_name_visits 0] at distinct
  have same := List.inj_on_of_nodup_map distinct
  have below : w.name ∈ under.names ↔ v.contains w := by
    rw [← under.map_name_visits (v.enter + 1), ← inside, List.mem_map]
    constructor
    · rintro ⟨u, mem, named⟩
      obtain ⟨there, contains⟩ := List.mem_filter.1 mem
      rwa [same there memW named] at contains
    · exact fun contains => ⟨w, List.mem_filter.2 ⟨memW, contains⟩, rfl⟩
  have beyond : v.name ∈ above' ↔ v.contains w := by
    rw [← List.mem_reverse, ← around, List.mem_map]
    constructor
    · rintro ⟨u, mem, named⟩
      obtain ⟨there, contains⟩ := List.mem_filter.1 mem
      rwa [same there memV named] at contains
    · exact fun contains => ⟨v, List.mem_filter.2 ⟨memV, contains⟩, rfl⟩
  rw [below, beyond]

end Forest

end ScopedQuery.Tree
