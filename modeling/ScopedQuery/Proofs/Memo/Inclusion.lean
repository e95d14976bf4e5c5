import ScopedQuery.Proofs.Memo.Order
import ScopedQuery.Proofs.Memo.Sound

set_option autoImplicit false

/-!
Memories of different sizes that are used for the same texts. What a memory holds are the texts that
were accepted last, as many of them as it has room for; so a larger memory holds all that a smaller
one holds, and finds all that the smaller one finds.
-/

namespace ScopedQuery

namespace Recency

open Memo (Key)

/-- What stands in front of one size can be cut to that size before or after a key comes to the
front: the key itself loses one entry at most. -/
theorem take_front {entries : List (Key × String)} {n : Nat}
    (distinct : (entries.map Prod.fst).Nodup) (positive : 0 < n) (k : Key) (value : String) :
    (front k value (entries.take n)).take n = (front k value entries).take n := by
  rw [front, front, List.take_cons positive, List.take_cons positive]
  refine congrArg ((k, value) :: ·) ?_
  rcases Nat.le_total entries.length n with whole | cut
  · rw [List.take_of_length_le whole]
  · have kept := length_le_without (k := k)
      (distinct.sublist ((List.take_sublist n entries).map Prod.fst))
    rw [List.length_take_of_le cut] at kept
    have split : without k entries = without k (entries.take n) ++ without k (entries.drop n) := by
      rw [without, without, without, ← List.filter_append, List.take_append_drop]
    rw [split, List.take_append_of_le_length (Nat.sub_le_of_le_add kept)]

end Recency

namespace Memo

open Recency (valueIn front take_front)

def held? (m : Memo) (k : Key) : Option String := (m.slot? k).map Slot.value

def sanitizeAll (m : Memo) (calls : List Key) : Memo :=
  calls.foldl (fun m k => (m.sanitize k.dialect k.text).2) m

def accept (history : List (Key × String)) (k : Key) : List (Key × String) :=
  match ScopedQuery.sanitize k.dialect k.text with
  | .ok value => front k value history
  | .error _ => history

/-- Whether a memory of a size holds the front of a history. -/
structure Holds (m : Memo) (n : Nat) (history : List (Key × String)) : Prop where
  timed : m.Timed
  sound : m.Sound
  capacity : m.capacity = n
  distinct : (history.map Prod.fst).Nodup
  entries : m.recency.entries = history.take n

variable {m small large : Memo} {k : Key} {s : Slot} {value : String} {e : QueryError}
  {history : List (Key × String)} {n a b : Nat}

theorem holds_empty (n : Nat) : (empty n).Holds (max n 1) [] where
  timed := timed_empty n
  sound := sound_empty n
  capacity := rfl
  distinct := List.nodup_nil
  entries := by
    rw [recency_empty, List.take_nil]
    rfl

theorem sanitize_of_some (slot : m.slot? k = some s) :
    m.sanitize k.dialect k.text = (.ok s.value, m.touch k) := by
  rw [sanitize, get_of_some slot]

theorem sanitize_of_ok (slot : m.slot? k = none)
    (made : ScopedQuery.sanitize k.dialect k.text = .ok value) :
    m.sanitize k.dialect k.text = (.ok value, m.miss.insert k value) := by
  rw [sanitize, get_of_none slot]
  simp only [made]

theorem sanitize_of_error (slot : m.slot? k = none)
    (refused : ScopedQuery.sanitize k.dialect k.text = .error e) :
    m.sanitize k.dialect k.text = (.error e, m.miss) := by
  rw [sanitize, get_of_none slot]
  simp only [refused]

theorem Holds.positive (h : m.Holds n history) : 0 < n := h.capacity ▸ h.timed.positive

/-- What is found comes to the front of the history, of which no more than before is held. -/
theorem Holds.entries_touch (h : m.Holds n history) (mem : s ∈ m.slots) :
    (m.touch s.key).recency.entries = (front s.key s.value history).take n := by
  have entries : (m.touch s.key).recency.entries = front s.key s.value (history.take n) := by
    rw [h.timed.recency_touch mem, ← h.entries]
  have fits : (front s.key s.value (history.take n)).length ≤ n := by
    rw [← entries, length_recency]
    exact h.capacity ▸ (h.timed.touch mem).bounded
  rw [entries, ← take_front h.distinct h.positive, List.take_of_length_le fits]

theorem Holds.entries_insert (h : m.Holds n history) (k : Key) (value : String) :
    (m.miss.insert k value).recency.entries = (front k value history).take n := by
  calc (m.miss.insert k value).recency.entries
    _ = (front k value m.recency.entries).take m.capacity :=
      (congrArg Recency.entries (h.timed.miss.recency_insert k value)).symm
    _ = (front k value (history.take n)).take n := by rw [h.entries, h.capacity]
    _ = (front k value history).take n := take_front h.distinct h.positive k value

theorem Holds.sanitize (h : m.Holds n history) (k : Key) :
    (m.sanitize k.dialect k.text).2.Holds n (accept history k) := by
  have sound := h.sound.sanitize k.dialect k.text
  cases slot : m.slot? k with
  | some s =>
    obtain ⟨mem, rfl⟩ := mem_of_slot? slot
    rw [sanitize_of_some slot] at sound ⊢
    rw [accept, h.sound s mem]
    exact
      { timed := h.timed.touch mem
        sound := sound
        capacity := h.capacity
        distinct := Recency.nodup_front h.distinct
        entries := h.entries_touch mem }
  | none =>
    cases made : ScopedQuery.sanitize k.dialect k.text with
    | ok value =>
      have capacity := congrArg Recency.capacity (h.timed.miss.recency_insert k value)
      rw [sanitize_of_ok slot made] at sound ⊢
      rw [accept, made]
      exact
        { timed := h.timed.miss.insert k value
          sound := sound
          capacity := capacity.symm.trans h.capacity
          distinct := Recency.nodup_front h.distinct
          entries := h.entries_insert k value }
    | error e =>
      rw [sanitize_of_error slot made] at sound ⊢
      rw [accept, made]
      exact
        { timed := h.timed.miss
          sound := sound
          capacity := h.capacity
          distinct := h.distinct
          entries := h.entries }

theorem Timed.hits_sanitize (h : m.Timed) (k : Key) :
    (m.sanitize k.dialect k.text).2.hits = m.hits + (if (m.held? k).isSome then 1 else 0) := by
  cases slot : m.slot? k with
  | some s =>
    rw [sanitize_of_some slot, held?, slot]
    rfl
  | none =>
    rw [held?, slot]
    cases made : ScopedQuery.sanitize k.dialect k.text with
    | ok value =>
      rw [sanitize_of_ok slot made]
      exact (congrArg Recency.hits (h.miss.recency_insert k value)).symm
    | error e =>
      rw [sanitize_of_error slot made]
      rfl

theorem Holds.sanitizeAll (h : m.Holds n history) (calls : List Key) :
    (m.sanitizeAll calls).Holds n (calls.foldl accept history) := by
  induction calls generalizing m history with
  | nil => exact h
  | cons k calls ih => exact ih (h.sanitize k)

section Sizes

variable (le : a ≤ b) (less : small.Holds a history) (more : large.Holds b history)

include le less more

theorem Holds.held_larger (found : small.held? k = some value) : large.held? k = some value := by
  rw [held?, ← less.timed.valueIn_recency, less.entries] at found
  rw [held?, ← more.timed.valueIn_recency, more.entries]
  refine Recency.valueIn_of_take (n := a) ?_
  rwa [List.take_take, Nat.min_eq_left le]

theorem Holds.hits_larger (fewer : small.hits ≤ large.hits) (calls : List Key) :
    (small.sanitizeAll calls).hits ≤ (large.sanitizeAll calls).hits := by
  induction calls generalizing small large history with
  | nil => exact fewer
  | cons k calls ih =>
    refine ih (less.sanitize k) (more.sanitize k) ?_
    rw [less.timed.hits_sanitize, more.timed.hits_sanitize]
    cases held : small.held? k with
    | none => exact Nat.le_trans fewer (Nat.le_add_right _ _)
    | some value =>
      rw [less.held_larger le more held]
      exact Nat.succ_le_succ fewer

end Sizes

/-- A larger memory never does worse. When two empty memories are used for the same texts, valid or
not, then after each of them all that the smaller memory holds is held by the larger one, with the
same value, and the larger one has had at least as many hits. -/
theorem held_of_smaller (h : a ≤ b) (calls : List Key) (i : Nat) :
    (∀ k value, ((empty a).sanitizeAll (calls.take i)).held? k = some value →
      ((empty b).sanitizeAll (calls.take i)).held? k = some value) ∧
    ((empty a).sanitizeAll (calls.take i)).hits ≤
      ((empty b).sanitizeAll (calls.take i)).hits := by
  have sizes : max a 1 ≤ max b 1 := by omega
  refine ⟨fun k value found => ?_, ?_⟩
  · exact ((holds_empty a).sanitizeAll _).held_larger sizes ((holds_empty b).sanitizeAll _) found
  · exact (holds_empty a).hits_larger sizes (holds_empty b) (Nat.le_refl 0) _

/-- A column that is asked for again after another one, and a text that is no column. A memory with
room for one column never finds any of them. -/
def turns : List Key :=
  [⟨"name", .mariadb⟩, ⟨"title", .mariadb⟩, ⟨"name", .mariadb⟩, ⟨"no field", .mariadb⟩]

theorem held_of_smaller_turns :
    1 ≤ 2 ∧
      ((empty 1).sanitizeAll (turns.take 4)).held? ⟨"name", .mariadb⟩ = some "name" ∧
      ((empty 2).sanitizeAll (turns.take 4)).held? ⟨"name", .mariadb⟩ = some "name" ∧
      ((empty 1).sanitizeAll (turns.take 4)).hits = 0 ∧
      ((empty 2).sanitizeAll (turns.take 4)).hits = 1 ∧
      ((empty 1).sanitizeAll (turns.take 4)).hits ≤
        ((empty 2).sanitizeAll (turns.take 4)).hits := by
  have le : 1 ≤ 2 := by decide
  obtain ⟨held, hits⟩ := held_of_smaller le turns 4
  have name : ((empty 1).sanitizeAll (turns.take 4)).held? ⟨"name", .mariadb⟩ = some "name" := by
    decide +kernel
  exact ⟨le, name, held _ _ name, by decide +kernel, by decide +kernel, hits⟩

end Memo

end ScopedQuery
