import Mathlib.Data.List.Nodup
import ScopedQuery.Filter.Lineage
import ScopedQuery.Proofs.Outcome
import ScopedQuery.Proofs.Tree.Forest

set_option autoImplicit false

namespace ScopedQuery

open Outcome

namespace Tree

variable {nodes : List Node} {visits : List Visit}

def Node.visit (n : Node) : Visit := ⟨n.name, n.lft.toInt, n.rgt.toInt⟩

theorem contains_bounds (a b : Node) : a.bounds.contains b.bounds = a.visit.contains b.visit := by
  rw [Bool.eq_iff_iff, Visit.contains_iff]
  unfold Bounds.contains
  rw [Bool.and_eq_true, decide_eq_true_eq, decide_eq_true_eq, Int64.lt_iff_toInt_lt,
    Int64.lt_iff_toInt_lt]
  rfl

theorem map_visit_mergeSort (key : Visit → Int) {le : Node → Node → Bool}
    (le_iff : ∀ a b, le a b ↔ key a.visit ≤ key b.visit) (perm : (nodes.map Node.visit).Perm visits)
    (sorted : visits.Pairwise fun a b => key a < key b) :
    (nodes.mergeSort le).map Node.visit = visits := by
  have perm' : ((nodes.mergeSort le).map Node.visit).Perm visits :=
    ((List.mergeSort_perm nodes le).map _).trans perm
  have trans : ∀ a b c : Node, le a b → le b c → le a c := by
    simp only [le_iff]
    omega
  have total : ∀ a b : Node, (le a b || le b a) = true := by
    simp only [Bool.or_eq_true, le_iff]
    omega
  have ascending : ((nodes.mergeSort le).map Node.visit).Pairwise fun a b => key a ≤ key b := by
    rw [List.pairwise_map]
    exact (List.pairwise_mergeSort trans total nodes).imp (le_iff _ _).1
  have distinct : (visits.map key).Nodup := List.pairwise_map.2 (sorted.imp Int.ne_of_lt)
  refine List.Perm.eq_of_pairwise ?_ ascending (sorted.imp Int.le_of_lt) perm'
  intro a b memA memB le ge
  exact List.inj_on_of_nodup_map distinct (perm'.mem_iff.1 memA) memB (Int.le_antisymm le ge)

variable {F : Forest} {start : Int} {n : Node}

theorem map_visit_nodesIn_inside (stored : (nodes.map Node.visit).Perm (F.visits start)) :
    (nodesIn nodes (.inside n.bounds)).map Node.visit =
      (F.visits start).filter n.visit.contains := by
  refine map_visit_mergeSort Visit.enter (fun a b => ?_) ?_
    ((F.pairwise_enter_visits start).filter _)
  · rw [decide_eq_true_eq, Int64.le_iff_toInt_le]
    rfl
  · simp only [contains_bounds]
    have kept := stored.filter n.visit.contains
    rwa [List.filter_map] at kept

theorem map_visit_nodesIn_enclosing (stored : (nodes.map Node.visit).Perm (F.visits start)) :
    (nodesIn nodes (.enclosing n.bounds)).map Node.visit =
      ((F.visits start).filter fun w => w.contains n.visit).reverse := by
  refine map_visit_mergeSort (fun v => -v.enter) (fun a b => ?_) ?_ ?_
  · rw [decide_eq_true_eq, Int64.le_iff_toInt_le, Int.neg_le_neg_iff]
    rfl
  · simp only [contains_bounds]
    have kept := stored.filter fun w => w.contains n.visit
    rw [List.filter_map] at kept
    exact kept.trans (List.reverse_perm _).symm
  · rw [List.pairwise_reverse]
    exact ((F.pairwise_enter_visits start).filter _).imp fun lt => Int.neg_lt_neg lt

end Tree

namespace Filter

open ScopedQuery.Tree Catalog

/-- The names that a relation asks for, of a record below some names and above a forest. -/
def Lineage.members (l : Lineage) (name : String) (above : List String) (under : Forest) :
    List String :=
  match l with
  | .descendants | .notDescendants => under.names
  | .descendantsInclusive => under.names ++ [name]
  | .ancestors | .notAncestors => above

section Stored

variable {c : Catalog} {entity name : String} {e : Entity} {F : Forest} {start : Int}
  (declared : c.entity entity = .ok e)

include declared

theorem bounds?_of_find?_none (unknown : e.nodes.find? (fun n => n.name == name) = none) :
    c.bounds? entity name = .ok none := by
  refine bind_eq_ok.2 ⟨e, declared, ?_⟩
  rw [unknown]
  rfl

theorem bounds?_of_find? {n : Node} (found : e.nodes.find? (fun n => n.name == name) = some n)
    (ordered : n.isOrdered) : c.bounds? entity name = .ok (some n.bounds) := by
  refine bind_eq_ok.2 ⟨e, declared, ?_⟩
  rw [found]
  exact if_pos ordered

theorem namesInRange_eq (range : Range) :
    c.namesInRange entity range = .ok ((nodesIn e.nodes range).map Node.name) := by
  unfold Catalog.namesInRange
  rw [declared]
  rfl

variable (stored : (e.nodes.map Node.visit).Perm (F.visits start))

include stored

theorem relatives_of_absent (absent : name ∉ F.names) (l : Lineage) :
    relatives c entity name l = .ok [] := by
  have unknown : e.nodes.find? (fun n => n.name == name) = none := by
    rw [List.find?_eq_none]
    intro n mem named
    refine absent ?_
    rw [← F.map_name_visits start, ← (stored.map Visit.name).mem_iff, List.map_map]
    exact List.mem_map.2 ⟨n, mem, beq_iff_eq.1 named⟩
  unfold relatives
  rw [bounds?_of_find?_none declared unknown]
  rfl

omit declared in
theorem find?_of_visit (distinct : F.names.Nodup) {v : Visit} (mem : v ∈ F.visits start) :
    ∃ n, e.nodes.find? (fun n => n.name == v.name) = some n ∧ n.visit = v := by
  obtain ⟨n, there, rfl⟩ := List.mem_map.1 (stored.mem_iff.2 mem)
  obtain ⟨found, look⟩ := Option.isSome_iff_exists.1 (List.find?_isSome.2
    ⟨n, there, beq_self_eq_true n.name⟩ : (e.nodes.find? fun m => m.name == n.name).isSome)
  have same : found.name = n.name := by simpa using List.find?_some look
  have visited : found.visit ∈ F.visits start :=
    stored.mem_iff.1 (List.mem_map_of_mem (List.mem_of_find?_eq_some look))
  rw [← F.map_name_visits start] at distinct
  exact ⟨found, look, List.inj_on_of_nodup_map distinct visited mem same⟩

theorem relatives_of_visit (distinct : F.names.Nodup) {v : Visit} (mem : v ∈ F.visits start)
    (l : Lineage) :
    relatives c entity v.name l = .ok
      ((if l.isDownward then ((F.visits start).filter v.contains).map Visit.name
        else (((F.visits start).filter fun w => w.contains v).map Visit.name).reverse) ++
        if l = .descendantsInclusive then [v.name] else []) := by
  obtain ⟨n, found, rfl⟩ := find?_of_visit stored distinct mem
  have ordered : n.isOrdered := by
    have within := (Forest.bounds_of_mem_visits mem).2.1
    unfold Node.isOrdered
    rw [decide_eq_true_eq, Int64.lt_iff_toInt_lt]
    exact within
  have names : (nodesIn e.nodes (l.range n.bounds)).map Node.name =
      if l.isDownward then ((F.visits start).filter n.visit.contains).map Visit.name
      else (((F.visits start).filter fun w => w.contains n.visit).map Visit.name).reverse := by
    have shown : Node.name = Visit.name ∘ Node.visit := rfl
    rw [shown, ← List.map_map, Lineage.range]
    split
    · rw [map_visit_nodesIn_inside stored]
    · rw [map_visit_nodesIn_enclosing stored, List.map_reverse]
  unfold relatives
  change c.bounds? entity n.visit.name >>= _ = _
  rw [bounds?_of_find? declared found ordered]
  change c.namesInRange entity (l.range n.bounds) >>= _ = _
  rw [namesInRange_eq declared, names]
  cases l <;> simp [bind, Except.bind, pure, Except.pure, Node.visit]

theorem relatives_of_stands (distinct : F.names.Nodup) {above : List String} {under : Forest}
    (stands : F.Stands name above under) (l : Lineage) :
    relatives c entity name l = .ok (l.members name above under) := by
  obtain ⟨v, mem, rfl, inside, around⟩ := stands.visit start
  rw [relatives_of_visit declared stored distinct mem, inside, around, Forest.map_name_visits,
    List.reverse_reverse]
  cases l <;> simp [Lineage.isDownward, Lineage.members]

/-- A record is listed below another one exactly if that one is listed above it. -/
theorem mem_descendants_iff (distinct : F.names.Nodup) (x y : String) :
    ∃ below above, relatives c entity x .descendants = .ok below ∧
      relatives c entity y .ancestors = .ok above ∧ (y ∈ below ↔ x ∈ above) := by
  by_cases memX : x ∈ F.names
  · obtain ⟨_, underX, standsX⟩ := Forest.exists_stands memX
    have below := relatives_of_stands declared stored distinct standsX .descendants
    by_cases memY : y ∈ F.names
    · obtain ⟨aboveY, _, standsY⟩ := Forest.exists_stands memY
      have above := relatives_of_stands declared stored distinct standsY .ancestors
      exact ⟨_, _, below, above, standsX.mem_under_iff distinct standsY⟩
    · have none := relatives_of_absent declared stored memY .ancestors
      refine ⟨_, _, below, none, fun listed => ?_, nofun⟩
      exact absurd (standsX.names_subset.2.1 listed) memY
  · have none := relatives_of_absent declared stored memX .descendants
    by_cases memY : y ∈ F.names
    · obtain ⟨aboveY, _, standsY⟩ := Forest.exists_stands memY
      have above := relatives_of_stands declared stored distinct standsY .ancestors
      refine ⟨_, _, none, above, nofun, fun listed => ?_⟩
      exact absurd (standsY.names_subset.2.2 listed) memX
    · exact ⟨_, _, none, relatives_of_absent declared stored memY .ancestors, nofun, nofun⟩

/-- Where an entity stores the walk of a forest with distinct names, in any order, every record has
the relatives that the forest gives it: the names below it in preorder, and the names above it from
the nearest on. What is no record has none, and being below and being above are each other's
converse. -/
theorem relatives_of_forest (distinct : F.names.Nodup) :
    (∀ name ∈ F.names, ∃ above under, F.Stands name above under) ∧
      (∀ name above under, F.Stands name above under →
        ∀ l, relatives c entity name l = .ok (l.members name above under)) ∧
      (∀ name ∉ F.names, ∀ l, relatives c entity name l = .ok []) ∧
      ∀ x y, ∃ below above, relatives c entity x .descendants = .ok below ∧
        relatives c entity y .ancestors = .ok above ∧ (y ∈ below ↔ x ∈ above) :=
  ⟨fun _ => Forest.exists_stands,
    fun _ _ _ => relatives_of_stands declared stored distinct,
    fun _ => relatives_of_absent declared stored,
    mem_descendants_iff declared stored distinct⟩

end Stored

def categoryTree : Forest :=
  .tree "Root" (.tree "X" (.tree "Y" .empty (.tree "Z" .empty .empty)) (.tree "W" .empty .empty))
    .empty

def categories : Catalog :=
  Catalog.empty.withTree "Category"
    [⟨"W", 8, 9⟩, ⟨"Z", 5, 6⟩, ⟨"X", 2, 7⟩, ⟨"Root", 1, 10⟩, ⟨"Y", 3, 4⟩]

theorem relatives_of_forest_categories :
    ∃ e, categories.entity "Category" = .ok e ∧ categoryTree.names.Nodup ∧
      (e.nodes.map Node.visit).Perm (categoryTree.visits 1) ∧
      relatives categories "Category" "X" .descendantsInclusive = .ok ["Y", "Z", "X"] ∧
      relatives categories "Category" "Y" .notAncestors = .ok ["X", "Root"] ∧
      relatives categories "Category" "Missing" .descendants = .ok [] := by
  obtain ⟨e, declared, nodes⟩ : ∃ e, categories.entity "Category" = .ok e ∧ e.nodes =
      [⟨"W", 8, 9⟩, ⟨"Z", 5, 6⟩, ⟨"X", 2, 7⟩, ⟨"Root", 1, 10⟩, ⟨"Y", 3, 4⟩] := ⟨_, rfl, rfl⟩
  have distinct : categoryTree.names.Nodup := by decide
  have stored : (e.nodes.map Node.visit).Perm (categoryTree.visits 1) := by
    rw [nodes]
    decide
  obtain ⟨_, known, unknown, _⟩ := relatives_of_forest declared stored distinct
  refine ⟨e, declared, distinct, stored, ?_, ?_, unknown _ (by decide) _⟩
  · exact known "X" _ _ (.inside _ _ (.here _ _ _)) .descendantsInclusive
  · exact known "Y" _ _ (.inside _ _ (.inside _ _ (.here _ _ _))) .notAncestors

end Filter

end ScopedQuery
