import Mathlib.Data.List.Nodup
import Mathlib.Data.List.Perm.Basic
import ScopedQuery.Memo.Basic

set_option autoImplicit false

namespace ScopedQuery

inductive Memo.Use where
  | get (key : Memo.Key)
  | insert (key : Memo.Key) (value : String)
  | clear
  deriving DecidableEq, Repr

structure Memo.Counts where
  hits : Nat
  misses : Nat
  evictions : Nat
  size : Nat
  capacity : Nat
  deriving DecidableEq, Repr

structure Recency where
  entries : List (Memo.Key × String)
  capacity : Nat
  hits : Nat
  misses : Nat
  evictions : Nat
  deriving DecidableEq, Repr

namespace Recency

open Memo (Key Use Counts)

def empty (capacity : Nat) : Recency := ⟨[], max capacity 1, 0, 0, 0⟩

def valueIn (entries : List (Key × String)) (k : Key) : Option String :=
  (entries.find? fun e => e.1 == k).map Prod.snd

def without (k : Key) (entries : List (Key × String)) : List (Key × String) :=
  entries.filter fun e => e.1 != k

def front (k : Key) (value : String) (entries : List (Key × String)) : List (Key × String) :=
  (k, value) :: without k entries

def get (r : Recency) (k : Key) : Option String × Recency :=
  match valueIn r.entries k with
  | some value =>
    (some value, { r with entries := front k value r.entries, hits := r.hits + 1 })
  | none => (none, { r with misses := r.misses + 1 })

def insert (r : Recency) (k : Key) (value : String) : Recency :=
  let entries := front k value r.entries
  { r with
    entries := entries.take r.capacity
    evictions := r.evictions + if r.capacity < entries.length then 1 else 0 }

def clear (r : Recency) : Recency := { r with entries := [] }

def counts (r : Recency) : Counts :=
  ⟨r.hits, r.misses, r.evictions, r.entries.length, r.capacity⟩

def use (r : Recency) : Use → Option String × Recency
  | .get k => r.get k
  | .insert k value => (none, r.insert k value)
  | .clear => (none, r.clear)

section Entries

variable {entries : List (Key × String)} {k other : Key} {value : String} {n : Nat}

theorem without_cons (k : Key) (e : Key × String) (entries : List (Key × String)) :
    without k (e :: entries) = if e.1 = k then without k entries else e :: without k entries := by
  unfold without
  rw [List.filter_cons]
  by_cases own : e.1 = k
  · simp [own]
  · simp [own]

theorem without_eq_self (h : k ∉ entries.map Prod.fst) : without k entries = entries := by
  refine List.filter_eq_self.2 fun e mem => bne_iff_ne.2 ?_
  rintro rfl
  exact h (List.mem_map_of_mem mem)

theorem not_mem_without (k : Key) (entries : List (Key × String)) :
    k ∉ (without k entries).map Prod.fst := by
  intro mem
  obtain ⟨e, there, eq⟩ := List.mem_map.1 mem
  have other : (e.1 != k) = true := (List.mem_filter.1 there).2
  exact bne_iff_ne.1 other eq

theorem nodup_without (distinct : (entries.map Prod.fst).Nodup) :
    ((without k entries).map Prod.fst).Nodup :=
  distinct.sublist ((List.filter_sublist).map Prod.fst)

theorem nodup_front (distinct : (entries.map Prod.fst).Nodup) :
    ((front k value entries).map Prod.fst).Nodup :=
  List.nodup_cons.2 ⟨not_mem_without k entries, nodup_without distinct⟩

theorem length_le_without (distinct : (entries.map Prod.fst).Nodup) :
    entries.length ≤ (without k entries).length + 1 := by
  induction entries with
  | nil => exact Nat.zero_le _
  | cons e entries ih =>
    obtain ⟨absent, others⟩ := List.nodup_cons.1 distinct
    by_cases own : e.1 = k
    · rw [without_cons, if_pos own, without_eq_self (own ▸ absent)]
      exact Nat.le_refl _
    · rw [without_cons, if_neg own]
      exact Nat.succ_le_succ (ih others)

theorem length_without_lt (mem : k ∈ entries.map Prod.fst) :
    (without k entries).length < entries.length := by
  obtain ⟨e, there, rfl⟩ := List.mem_map.1 mem
  refine List.length_filter_lt_length_iff_exists.2 ⟨e, there, ?_⟩
  simp

theorem valueIn_eq_none_iff : valueIn entries k = none ↔ k ∉ entries.map Prod.fst := by
  rw [valueIn, Option.map_eq_none_iff, List.find?_eq_none, List.mem_map]
  simp only [beq_iff_eq, not_exists, not_and]

theorem valueIn_eq_some_iff (distinct : (entries.map Prod.fst).Nodup) :
    valueIn entries k = some value ↔ (k, value) ∈ entries := by
  rw [valueIn, Option.map_eq_some_iff]
  constructor
  · rintro ⟨e, found, rfl⟩
    have key : e.1 = k := by simpa using List.find?_some found
    rw [← key]
    exact List.mem_of_find?_eq_some found
  · intro mem
    cases found : entries.find? fun e => e.1 == k with
    | none =>
      have other := List.find?_eq_none.1 found _ mem
      exact absurd (beq_self_eq_true k) other
    | some e =>
      have key : e.1 = k := by simpa using List.find?_some found
      exact ⟨e, rfl, congrArg Prod.snd <| List.inj_on_of_nodup_map distinct
        (List.mem_of_find?_eq_some found) mem key⟩

theorem valueIn_of_take (h : valueIn (entries.take n) k = some value) :
    valueIn entries k = some value := by
  obtain ⟨e, found, rfl⟩ := Option.map_eq_some_iff.1 h
  rw [valueIn, (List.take_prefix n entries).find?_eq_some found]
  rfl

end Entries

section Insert

variable {r : Recency} {k : Key} (value : String)

theorem insert_of_room (room : (without k r.entries).length < r.capacity) :
    r.insert k value = { r with entries := front k value r.entries } := by
  have fits : (front k value r.entries).length ≤ r.capacity := room
  unfold insert
  simp only [List.take_of_length_le fits, if_neg (Nat.not_lt.2 fits), Nat.add_zero]

theorem insert_of_full (absent : k ∉ r.entries.map Prod.fst)
    (full : r.entries.length = r.capacity) (positive : 0 < r.capacity) :
    r.insert k value =
      { r with
        entries := (k, value) :: r.entries.dropLast
        evictions := r.evictions + 1 } := by
  have whole : front k value r.entries = (k, value) :: r.entries := by
    rw [front, without_eq_self absent]
  have cut : ((k, value) :: r.entries).take r.capacity = (k, value) :: r.entries.dropLast := by
    rw [List.take_cons positive, List.dropLast_eq_take, full]
  have exceeds : r.capacity < ((k, value) :: r.entries).length := by
    rw [List.length_cons, full]
    exact Nat.lt_succ_self _
  unfold insert
  simp only [whole, cut, if_pos exceeds]

end Insert

end Recency

end ScopedQuery
