import Mathlib.Data.List.Nodup
import ScopedQuery.Sql.Statement

set_option autoImplicit false

namespace ScopedQuery.Sql.Join

def extend (joins further : List Join) : List Join :=
  further.foldl (fun joins j => if joins.any (·.table == j.table) then joins else joins ++ [j]) joins

variable {joins further : List Join} {j : Join} {t : Table}

theorem extend_cons : extend joins (j :: further) =
    extend (if joins.any (·.table == j.table) then joins else joins ++ [j]) further := rfl

theorem extend_append (joins some others : List Join) :
    extend joins (some ++ others) = extend (extend joins some) others :=
  List.foldl_append

theorem any_table : joins.any (·.table == t) ↔ t ∈ joins.map table := by
  simp [List.any_eq_true]

theorem prefix_extend (joins further : List Join) : joins <+: extend joins further := by
  induction further generalizing joins with
  | nil => exact List.prefix_rfl
  | cons j further ih =>
    rw [extend_cons]
    split
    · exact ih joins
    · exact (List.prefix_append joins [j]).trans (ih _)

theorem mem_of_mem_extend (mem : j ∈ extend joins further) : j ∈ joins ∨ j ∈ further := by
  induction further generalizing joins with
  | nil => exact .inl mem
  | cons k further ih =>
    rw [extend_cons] at mem
    rcases ih mem with mem | mem
    · split at mem
      · exact .inl mem
      · refine (List.mem_append.1 mem).imp_right fun mem => ?_
        rw [List.mem_singleton.1 mem]
        exact List.mem_cons_self
    · exact .inr (List.mem_cons_of_mem k mem)

theorem find?_extend (joins further : List Join) (t : Table) :
    (extend joins further).find? (·.table == t) = (joins ++ further).find? (·.table == t) := by
  induction further generalizing joins with
  | nil => rw [List.append_nil]; rfl
  | cons j further ih =>
    rw [extend_cons, ih]
    split
    · next there =>
      rw [List.find?_append, List.find?_append, List.find?_cons]
      split
      · next same =>
        obtain ⟨k, found⟩ : ∃ k, joins.find? (·.table == t) = some k := by
          rw [← Option.isSome_iff_exists, List.find?_isSome]
          simpa [← (beq_iff_eq.1 same), List.any_eq_true] using there
        rw [found, Option.some_or, Option.some_or]
      · rfl
    · rw [List.append_assoc]
      rfl

theorem find?_table (once : (joins.map table).Nodup) (mem : j ∈ joins) :
    joins.find? (·.table == j.table) = some j := by
  induction joins with
  | nil => cases mem
  | cons k joins ih =>
    rw [List.map_cons, List.nodup_cons] at once
    rcases List.mem_cons.1 mem with rfl | mem
    · exact List.find?_cons_of_pos (beq_self_eq_true _)
    · have other : k.table ≠ j.table := fun eq => once.1 (eq ▸ List.mem_map_of_mem mem)
      rw [List.find?_cons_of_neg (by simpa using other)]
      exact ih once.2 mem

theorem mem_tables_extend :
    t ∈ (extend joins further).map table ↔ t ∈ (joins ++ further).map table := by
  have found := congrArg Option.isSome (find?_extend joins further t)
  rw [Bool.eq_iff_iff, List.find?_isSome, List.find?_isSome] at found
  simpa only [List.mem_map, beq_iff_eq] using found

theorem nodup_extend (h : (joins.map table).Nodup) : ((extend joins further).map table).Nodup := by
  induction further generalizing joins with
  | nil => exact h
  | cons j further ih =>
    rw [extend_cons]
    split
    · exact ih h
    · next new =>
      rw [any_table] at new
      refine ih ?_
      rw [List.map_append, List.map_singleton]
      exact h.append (List.nodup_singleton _) (by simpa [List.disjoint_singleton] using new)

theorem tables_extend (h : (joins.map table).eraseDups = joins.map table) :
    (extend joins further).map table = ((joins ++ further).map table).eraseDups := by
  induction further generalizing joins with
  | nil =>
    rw [List.append_nil, h]
    rfl
  | cons j further ih =>
    rw [extend_cons]
    split
    · next there =>
      rw [any_table] at there
      rw [ih h, List.map_append, List.map_append, List.eraseDups_append, List.eraseDups_append,
        List.map_cons, List.cons_removeAll, List.contains_iff_mem.2 there]
      rfl
    · next new =>
      rw [any_table] at new
      have settled : ((joins ++ [j]).map table).eraseDups = (joins ++ [j]).map table := by
        rw [← List.contains_iff_mem, Bool.not_eq_true] at new
        rw [List.map_append, List.map_singleton, List.eraseDups_append, h, List.cons_removeAll, new]
        rfl
      rw [ih settled, List.append_assoc]
      rfl

theorem extend_eq_self (h : ∀ j ∈ further, j.table ∈ joins.map table) :
    extend joins further = joins := by
  induction further with
  | nil => rfl
  | cons j further ih =>
    obtain ⟨first, others⟩ := List.forall_mem_cons.1 h
    rw [extend_cons, if_pos (any_table.2 first), ih others]

end ScopedQuery.Sql.Join
