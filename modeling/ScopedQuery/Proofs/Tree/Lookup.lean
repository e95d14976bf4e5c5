import Mathlib.Data.List.Permutation
import ScopedQuery.Proofs.Sql.Answer
import ScopedQuery.Proofs.Tree.Relatives

set_option autoImplicit false

namespace ScopedQuery

open Sql Outcome

namespace Tree

def Node.record (table : Table) (n : Node) : Record where
  table := table
  value
    | "name" => .text n.name
    | "lft" => .int n.lft
    | "rgt" => .int n.rgt
    | _ => .null

section Record

variable {table : Table} {column : String}

theorem Node.value?_record (n : Node) :
    (table.column column).term.value? (n.record table) = some ((n.record table).value column) :=
  if_pos rfl

theorem Node.outcome?_record (op : BinaryOp) (v : Literal) (n : Node) :
    (Criterion.compare (table.column column).term op (.literal v)).outcome? (n.record table) =
      op.outcome ((n.record table).value column) v := by
  rw [Criterion.outcome?, value?_record]
  rfl

theorem Node.puts_lft (direction : Direction) (m n : Node) :
    Ordering.puts ⟨(table.column "lft").term, direction⟩ (m.record table) (n.record table) =
      match direction with
      | .asc => decide (m.lft < n.lft)
      | .desc => decide (n.lft < m.lft) := by
  unfold Ordering.puts
  simp only [value?_record]
  cases direction
  · exact BinaryOp.outcome_lt_int m.lft n.lft
  · exact BinaryOp.outcome_lt_int n.lft m.lft

/-- Left ends always compare, so that one row may come before another one if its left end does. -/
theorem Node.precedes_lft (direction : Direction) (m n : Node) :
    Precedes [⟨(table.column "lft").term, direction⟩] (m.record table) (n.record table) ↔
      match direction with
      | .asc => m.lft ≤ n.lft
      | .desc => n.lft ≤ m.lft := by
  simp only [Precedes, and_true, puts_lft]
  cases direction <;>
  · simp only [decide_eq_true_eq, decide_eq_false_iff_not, Int64.lt_iff_toInt_lt,
      Int64.le_iff_toInt_le]
    omega

end Record

section Nodes

variable {nodes : List Node}

theorem filter_name (distinct : (nodes.map Node.name).Nodup) (name : String) :
    nodes.filter (fun n => n.name == name) =
      (nodes.find? fun n => n.name == name).toList := by
  induction nodes with
  | nil => rfl
  | cons n nodes ih =>
    obtain ⟨new, rest⟩ := List.nodup_cons.1 distinct
    rw [List.filter_cons, List.find?_cons]
    cases same : n.name == name with
    | false => exact ih rest
    | true =>
      have none : nodes.filter (fun m => m.name == name) = [] := by
        rw [List.filter_eq_nil_iff]
        intro m mem again
        rw [beq_iff_eq.1 same, ← beq_iff_eq.1 again] at new
        exact new (List.mem_map_of_mem mem)
      simp only [if_true, none]
      rfl

/-- Which nodes are in a range. -/
def Range.keeps : Range → Node → Bool
  | .inside b, n => b.contains n.bounds
  | .enclosing b, n => n.bounds.contains b

def Range.direction : Range → Direction
  | .inside _ => .asc
  | .enclosing _ => .desc

theorem nodesIn_perm (nodes : List Node) (range : Range) :
    (nodesIn nodes range).Perm (nodes.filter range.keeps) := by
  cases range <;> exact List.mergeSort_perm _ _

/-- The nodes in a range come in an order that the left ends allow. -/
theorem pairwise_nodesIn (table : Table) (nodes : List Node) (range : Range) :
    ((nodesIn nodes range).map (Node.record table)).Pairwise
      (Precedes [⟨(table.column "lft").term, range.direction⟩]) := by
  rw [List.pairwise_map]
  cases range with
  | inside b =>
    refine (List.pairwise_mergeSort (fun a b c => ?_) (fun a b => ?_) _).imp fun le => ?_
    · simp only [decide_eq_true_eq, Int64.le_iff_toInt_le]
      omega
    · simp only [Bool.or_eq_true, decide_eq_true_eq, Int64.le_iff_toInt_le]
      omega
    · exact (Node.precedes_lft .asc _ _).2 (by simpa using le)
  | enclosing b =>
    refine (List.pairwise_mergeSort (fun a b c => ?_) (fun a b => ?_) _).imp fun le => ?_
    · simp only [decide_eq_true_eq, Int64.le_iff_toInt_le]
      omega
    · simp only [Bool.or_eq_true, decide_eq_true_eq, Int64.le_iff_toInt_le]
      omega
    · exact (Node.precedes_lft .desc _ _).2 (by simpa using le)

/-- With left ends that differ there is no other order of the same rows that they allow. -/
theorem eq_of_precedes {table : Table} {direction : Direction} {some other : List Record}
    (lefts : (nodes.map Node.lft).Nodup)
    (within : ∀ r ∈ other, r ∈ nodes.map (Node.record table)) (perm : some.Perm other)
    (sorted : some.Pairwise (Precedes [⟨(table.column "lft").term, direction⟩]))
    (sorted' : other.Pairwise (Precedes [⟨(table.column "lft").term, direction⟩])) :
    some = other := by
  refine List.Perm.eq_of_pairwise (fun a b memA memB le ge => ?_) sorted sorted' perm
  obtain ⟨m, memM, rfl⟩ := List.mem_map.1 (within a (perm.mem_iff.1 memA))
  obtain ⟨n, memN, rfl⟩ := List.mem_map.1 (within b memB)
  have same : m.lft = n.lft := by
    rw [Node.precedes_lft] at le ge
    cases direction
    · exact Int64.le_antisymm le ge
    · exact Int64.le_antisymm ge le
  rw [List.inj_on_of_nodup_map lefts memM memN same]

end Nodes

end Tree

namespace Filter

open ScopedQuery.Tree Catalog

variable {nodes : List Node} {entity name : String}

theorem picks_boundsQuery (d : Dialect) (n : Node) :
    (boundsQuery entity name d).picks (n.record (.ofEntity entity)) = (n.name == name) := by
  change [Column.equals _ _].all _ = _
  rw [List.all_cons, List.all_nil, Bool.and_true, Column.equals, Term.text, Node.outcome?_record]
  exact BinaryOp.outcome_eq_text _ _

theorem picks_rangeQuery (range : Range) (d : Dialect) (n : Node) :
    (rangeQuery entity range d).picks (n.record (.ofEntity entity)) = range.keeps n := by
  cases range with
  | inside b =>
    change [Criterion.compare _ _ _, Criterion.compare _ _ _].all _ = _
    simp only [List.all_cons, List.all_nil, Bool.and_true, Node.outcome?_record]
    exact congrArg₂ and (BinaryOp.outcome_gt_int _ _) (BinaryOp.outcome_lt_int _ _)
  | enclosing b =>
    change [Criterion.compare _ _ _, Criterion.compare _ _ _].all _ = _
    simp only [List.all_cons, List.all_nil, Bool.and_true, Node.outcome?_record]
    exact congrArg₂ and (BinaryOp.outcome_lt_int _ _) (BinaryOp.outcome_gt_int _ _)

theorem answers_boundsQuery (distinct : (nodes.map Node.name).Nodup) (entity name : String)
    (d : Dialect) (answer : List (List Literal)) :
    (boundsQuery entity name d).Answers (nodes.map (Node.record (.ofEntity entity))) answer ↔
      answer = (nodes.find? fun n => n.name == name).toList.map fun n =>
        [.int n.lft, .int n.rgt] := by
  have picked : (nodes.map (Node.record (.ofEntity entity))).filter
      (boundsQuery entity name d).picks =
        (nodes.find? fun n => n.name == name).toList.map (Node.record (.ofEntity entity)) := by
    rw [List.filter_map, ← filter_name distinct]
    exact congrArg (List.map _) (List.filter_congr fun n _ => picks_boundsQuery d n)
  refine Query.answers_iff ⟨rfl, rfl, ?_, rfl, rfl, rfl, rfl⟩ (.of_eq picked.symm) ?_ ?_ ?_ answer
  · exact fun c mem => ⟨_, _, _, List.mem_singleton.1 mem⟩
  · intro other perm _
    cases found : nodes.find? fun n => n.name == name with
    | none =>
      rw [found] at perm
      exact perm.eq_nil
    | some n =>
      rw [found] at perm
      exact List.perm_singleton.1 perm
  · exact List.pairwise_of_forall fun _ _ => trivial
  · rw [List.map_map, List.map_map]
    refine List.map_congr_left fun n _ => ?_
    change [_, _].mapM _ = _
    rw [List.mapM_cons, List.mapM_cons, Node.value?_record, Node.value?_record]
    rfl

theorem selects_rangeQuery (range : Range) (d : Dialect) :
    (rangeQuery entity range d).selects = [((Table.ofEntity entity).column "name").term] := by
  cases range <;> rfl

theorem orderBys_rangeQuery (range : Range) (d : Dialect) : (rangeQuery entity range d).orderBys =
    [⟨((Table.ofEntity entity).column "lft").term, range.direction⟩] := by
  cases range <;> rfl

theorem isLookup_rangeQuery (range : Range) (d : Dialect) :
    (rangeQuery entity range d).IsLookup := by
  cases range with
  | inside b | enclosing b =>
    refine ⟨rfl, rfl, fun c mem => ?_, rfl, rfl, rfl, rfl⟩
    rcases List.mem_pair.1 mem with rfl | rfl <;> exact ⟨_, _, _, rfl⟩

theorem answers_rangeQuery (lefts : (nodes.map Node.lft).Nodup) (entity : String) (range : Range)
    (d : Dialect) (answer : List (List Literal)) :
    (rangeQuery entity range d).Answers (nodes.map (Node.record (.ofEntity entity))) answer ↔
      answer = ((nodesIn nodes range).map Node.name).map fun n => [.text n] := by
  have perm := nodesIn_perm nodes range
  have picked : (nodes.map (Node.record (.ofEntity entity))).filter
      (rangeQuery entity range d).picks =
        (nodes.filter range.keeps).map (Node.record (.ofEntity entity)) := by
    rw [List.filter_map]
    exact congrArg (List.map _) (List.filter_congr fun n _ => picks_rangeQuery range d n)
  have sorted := pairwise_nodesIn (.ofEntity entity) nodes range
  rw [← orderBys_rangeQuery range d] at sorted
  refine Query.answers_iff (isLookup_rangeQuery range d) (picked ▸ perm.map _) ?_ sorted ?_ answer
  · intro other perm' sorted'
    rw [orderBys_rangeQuery] at sorted sorted'
    refine eq_of_precedes lefts (fun r mem => ?_) perm' sorted' sorted
    obtain ⟨n, there, rfl⟩ := List.mem_map.1 mem
    exact List.mem_map_of_mem (List.mem_filter.1 (perm.mem_iff.1 there)).1
  · simp only [List.map_map]
    refine List.map_congr_left fun n _ => ?_
    change (rangeQuery entity range d).selects.mapM _ = _
    rw [selects_rangeQuery, List.mapM_cons, Node.value?_record]
    rfl

/-- On the stored nodes, whose names and left ends differ and whose intervals are not reversed, the
exported queries answer with the interval that the catalog finds for a name, if there is a node of
that name, and with its relatives. -/
theorem answers_of_stored {c : Catalog} {e : Entity} (declared : c.entity entity = .ok e)
    (names : (e.nodes.map Node.name).Nodup) (lefts : (e.nodes.map Node.lft).Nodup)
    (ordered : ∀ n ∈ e.nodes, n.isOrdered) (name : String) (d : Dialect) :
    let rows := e.nodes.map (Node.record (.ofEntity entity))
    ∃ found, c.bounds? entity name = .ok found ∧
      (found = none ↔ name ∉ e.nodes.map Node.name) ∧
      (∀ answer, (boundsQuery entity name d).Answers rows answer ↔
        answer = found.toList.map fun b => [.int b.lft, .int b.rgt]) ∧
      ∀ l, l ≠ .descendantsInclusive → ∃ listed, relatives c entity name l = .ok listed ∧
        (found = none → listed = []) ∧
        ∀ b ∈ found, ∀ answer, (rangeQuery entity (l.range b) d).Answers rows answer ↔
          answer = listed.map fun n => [.text n] := by
  intro rows
  have bounds := answers_boundsQuery names entity name d
  cases look : e.nodes.find? fun n => n.name == name with
  | none =>
    have missing : c.bounds? entity name = .ok none := bounds?_of_find?_none declared look
    rw [look] at bounds
    refine ⟨none, missing, ?_, bounds, fun l _ => ⟨[], ?_, fun _ => rfl, nofun⟩⟩
    · simpa using look
    · unfold relatives
      rw [missing]
      rfl
  | some n =>
    have mem := List.mem_of_find?_eq_some look
    have known := bounds?_of_find? declared look (ordered n mem)
    rw [look] at bounds
    refine ⟨some n.bounds, known, ?_, bounds,
      fun l flat => ⟨(nodesIn e.nodes (l.range n.bounds)).map Node.name, ?_, nofun, ?_⟩⟩
    · have same : n.name = name := by simpa using List.find?_some look
      exact iff_of_false nofun fun absent => absent (same ▸ List.mem_map_of_mem mem)
    · unfold relatives
      rw [known]
      change c.namesInRange entity (l.range n.bounds) >>= _ = _
      rw [namesInRange_eq declared]
      exact congrArg Except.ok (if_neg (by simpa using flat))
    · rintro _ ⟨⟩
      exact answers_rangeQuery lefts entity _ d

theorem answers_of_stored_categories :
    ∃ e, categories.entity "Category" = .ok e ∧ (e.nodes.map Node.name).Nodup ∧
      (e.nodes.map Node.lft).Nodup ∧ (∀ n ∈ e.nodes, n.isOrdered) ∧
      (∀ answer, (boundsQuery "Category" "Y" .mariadb).Answers
        (e.nodes.map (Node.record (.ofEntity "Category"))) answer ↔
          answer = [[.int 3, .int 4]]) ∧
      ∀ answer, (rangeQuery "Category" (.enclosing ⟨3, 4⟩) .mariadb).Answers
        (e.nodes.map (Node.record (.ofEntity "Category"))) answer ↔
          answer = [[.text "X"], [.text "Root"]] := by
  obtain ⟨e, declared, nodes⟩ : ∃ e, categories.entity "Category" = .ok e ∧ e.nodes =
      [⟨"W", 8, 9⟩, ⟨"Z", 5, 6⟩, ⟨"X", 2, 7⟩, ⟨"Root", 1, 10⟩, ⟨"Y", 3, 4⟩] := ⟨_, rfl, rfl⟩
  have names : (e.nodes.map Node.name).Nodup := by rw [nodes]; decide
  have lefts : (e.nodes.map Node.lft).Nodup := by rw [nodes]; decide
  have ordered : ∀ n ∈ e.nodes, n.isOrdered := by rw [nodes]; decide
  obtain ⟨found, bounds, _, interval, related⟩ :=
    answers_of_stored declared names lefts ordered "Y" .mariadb
  have located : categories.bounds? "Category" "Y" = .ok (some ⟨3, 4⟩) := rfl
  obtain rfl : found = some ⟨3, 4⟩ := Except.ok.inj (bounds.symm.trans located)
  obtain ⟨listed, known, _, lookup⟩ := related .ancestors (by decide)
  have above : relatives categories "Category" "Y" .ancestors = .ok ["X", "Root"] := by cbv
  obtain rfl : listed = ["X", "Root"] := Except.ok.inj (known.symm.trans above)
  exact ⟨e, declared, names, lefts, ordered, interval, lookup _ rfl⟩

end Filter

end ScopedQuery
