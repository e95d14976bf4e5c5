import Mathlib.Data.List.Sort
import ScopedQuery.Proofs.Memo.Recency

set_option autoImplicit false

/-!
The times of uses order the entries of a memory. No two entries have one time, so that a memory is
known by its entries in the order of their times, whatever order they are kept in: each use changes
that order as it changes a memory without times.
-/

namespace ScopedQuery.Memo

open Recency (valueIn without front)

def Slot.entry (s : Slot) : Key × String := (s.key, s.value)

def byUse (m : Memo) : List Slot := m.slots.mergeSort fun a b => b.lastUse ≤ a.lastUse

def recency (m : Memo) : Recency :=
  ⟨m.byUse.map Slot.entry, m.capacity, m.hits, m.misses, m.evictions⟩

def use (m : Memo) : Use → Option String × Memo
  | .get k => m.get k
  | .insert k value => (none, m.insert k value)
  | .clear => (none, m.clear)

def counts (m : Memo) : Counts := ⟨m.hits, m.misses, m.evictions, m.size, m.capacity⟩

/-- Whether no key and no time stands twice, all times are past, and there is room for what is
there. -/
structure Timed (m : Memo) : Prop where
  keys : (m.slots.map Slot.key).Nodup
  times : (m.slots.map Slot.lastUse).Nodup
  past : ∀ s ∈ m.slots, s.lastUse < m.clock
  bounded : m.size ≤ m.capacity
  positive : 0 < m.capacity

variable {m m' : Memo} {k : Key} {value : String} {s : Slot} {slots : List Slot} {n : Nat}

theorem timed_empty (n : Nat) : (empty n).Timed where
  keys := List.nodup_nil
  times := List.nodup_nil
  past := nofun
  bounded := Nat.zero_le _
  positive := Nat.le_max_right n 1

/-! ### The order of use -/

theorem byUse_perm (m : Memo) : m.byUse.Perm m.slots := List.mergeSort_perm _ _

theorem sorted_byUse (m : Memo) : m.byUse.Pairwise fun a b => b.lastUse ≤ a.lastUse := by
  have sorted := @List.pairwise_mergeSort _ (fun a b : Slot => b.lastUse ≤ a.lastUse)
    (by simp; omega) (by simp; omega) m.slots
  simpa only [byUse, decide_eq_true_eq] using sorted

theorem byUse_eq (perm : slots.Perm m.slots)
    (falling : slots.Pairwise fun a b => b.lastUse < a.lastUse) : m.byUse = slots := by
  have times : (slots.map Slot.lastUse).Nodup :=
    List.pairwise_map.2 (falling.imp Nat.ne_of_gt)
  refine List.Perm.eq_of_pairwise ?_ m.sorted_byUse (falling.imp Nat.le_of_lt)
    (m.byUse_perm.trans perm.symm)
  intro a b ha hb ab ba
  have there : a ∈ slots := perm.mem_iff.2 (m.byUse_perm.mem_iff.1 ha)
  exact List.inj_on_of_nodup_map times there hb (Nat.le_antisymm ba ab)

theorem Timed.falling (h : m.Timed) : m.byUse.Pairwise fun a b => b.lastUse < a.lastUse := by
  have times : (m.byUse.map Slot.lastUse).Nodup :=
    (m.byUse_perm.map Slot.lastUse).nodup_iff.2 h.times
  refine (m.sorted_byUse.and (List.pairwise_map.1 times)).imp ?_
  rintro a b ⟨le, ne⟩
  exact Nat.lt_of_le_of_ne le (Ne.symm ne)

theorem recency_eq (order : m.byUse = slots) :
    m.recency = ⟨slots.map Slot.entry, m.capacity, m.hits, m.misses, m.evictions⟩ := by
  rw [recency, order]

theorem recency_empty (n : Nat) : (empty n).recency = Recency.empty n := by
  have order : (empty n).byUse = [] := List.mergeSort_nil
  exact recency_eq order

/-! ### Keys -/

theorem keys_recency (m : Memo) : m.recency.entries.map Prod.fst = m.byUse.map Slot.key := by
  rw [recency, List.map_map]
  rfl

theorem mem_keys_recency : k ∈ m.recency.entries.map Prod.fst ↔ k ∈ m.slots.map Slot.key := by
  rw [keys_recency]
  exact (m.byUse_perm.map Slot.key).mem_iff

theorem Timed.distinct (h : m.Timed) : (m.recency.entries.map Prod.fst).Nodup := by
  rw [keys_recency]
  exact (m.byUse_perm.map Slot.key).nodup_iff.2 h.keys

theorem length_recency (m : Memo) : m.recency.entries.length = m.size := by
  rw [recency, List.length_map, m.byUse_perm.length_eq, size]

theorem slot?_eq_none_iff : m.slot? k = none ↔ k ∉ m.slots.map Slot.key := by
  rw [slot?, List.find?_eq_none, List.mem_map]
  simp only [beq_iff_eq, not_exists, not_and]

theorem mem_of_slot? (found : m.slot? k = some s) : s ∈ m.slots ∧ s.key = k :=
  ⟨List.mem_of_find?_eq_some found, by simpa using List.find?_some found⟩

theorem Timed.valueIn_recency (h : m.Timed) (k : Key) :
    valueIn m.recency.entries k = (m.slot? k).map Slot.value := by
  cases found : m.slot? k with
  | none =>
    rw [Option.map_none, Recency.valueIn_eq_none_iff, mem_keys_recency]
    exact slot?_eq_none_iff.1 found
  | some s =>
    obtain ⟨mem, rfl⟩ := mem_of_slot? found
    rw [Option.map_some, Recency.valueIn_eq_some_iff h.distinct]
    exact List.mem_map.2 ⟨s, m.byUse_perm.mem_iff.2 mem, rfl⟩

/-! ### Entries that are used now -/

theorem map_entry_without (k : Key) (slots : List Slot) :
    (slots.filter fun s => s.key != k).map Slot.entry = without k (slots.map Slot.entry) := by
  rw [without, List.filter_map]
  rfl

theorem Timed.byUse_fresh (h : m.Timed) {fresh : Slot}
    (perm : m'.slots.Perm (fresh :: m.slots.filter fun s => s.key != k))
    (now : fresh.lastUse = m.clock) :
    m'.byUse = fresh :: m.byUse.filter fun s => s.key != k := by
  refine byUse_eq (((m.byUse_perm.filter _).cons fresh).trans perm.symm) ?_
  refine List.pairwise_cons.2 ⟨fun s mem => ?_, h.falling.sublist List.filter_sublist⟩
  rw [now]
  exact h.past s (m.byUse_perm.mem_iff.1 (List.mem_filter.1 mem).1)

theorem Timed.fresh (h : m.Timed) {fresh : Slot}
    (perm : m'.slots.Perm (fresh :: m.slots.filter fun s => s.key != k))
    (key : fresh.key = k) (now : fresh.lastUse = m.clock) (clock : m'.clock = m.clock + 1)
    (capacity : m'.capacity = m.capacity)
    (room : (m.slots.filter fun s => s.key != k).length < m.capacity) : m'.Timed where
  keys := by
    rw [(perm.map Slot.key).nodup_iff, List.map_cons, List.nodup_cons]
    refine ⟨fun mem => ?_, h.keys.sublist (List.filter_sublist.map Slot.key)⟩
    obtain ⟨s, there, eq⟩ := List.mem_map.1 mem
    have other : (s.key != k) = true := (List.mem_filter.1 there).2
    exact bne_iff_ne.1 other (eq.trans key)
  times := by
    rw [(perm.map Slot.lastUse).nodup_iff, List.map_cons, List.nodup_cons]
    refine ⟨fun mem => ?_, h.times.sublist (List.filter_sublist.map Slot.lastUse)⟩
    obtain ⟨s, there, eq⟩ := List.mem_map.1 mem
    exact Nat.ne_of_lt (h.past s (List.mem_filter.1 there).1) (eq.trans now)
  past s mem := by
    rw [clock]
    rcases List.mem_cons.1 (perm.mem_iff.1 mem) with rfl | mem
    · exact now ▸ Nat.lt_succ_self _
    · exact Nat.lt_succ_of_lt (h.past s (List.mem_filter.1 mem).1)
  bounded := by
    rw [size, perm.length_eq, capacity]
    exact room
  positive := capacity ▸ h.positive

/-! ### Looking up -/

theorem map_touch_perm (keys : (slots.map Slot.key).Nodup) (mem : s ∈ slots) (now : Nat) :
    (slots.map fun t => if t.key == s.key then { t with lastUse := now } else t).Perm
      ({ s with lastUse := now } :: slots.filter fun t => t.key != s.key) := by
  induction slots with
  | nil => cases mem
  | cons t slots ih =>
    obtain ⟨absent, others⟩ := List.nodup_cons.1 keys
    by_cases own : t.key = s.key
    · have same : t = s := List.inj_on_of_nodup_map keys List.mem_cons_self mem own
      subst same
      have apart : ∀ u ∈ slots, u.key ≠ t.key := by
        rintro u there eq
        exact absent (eq ▸ List.mem_map_of_mem there)
      have kept : slots.filter (fun u => u.key != t.key) = slots :=
        List.filter_eq_self.2 fun u there => bne_iff_ne.2 (apart u there)
      have untouched :
          slots.map (fun u => if u.key == t.key then { u with lastUse := now } else u) = slots := by
        refine (List.map_congr_left fun u there => ?_).trans (List.map_id slots)
        simp [apart u there]
      rw [List.map_cons, List.filter_cons, untouched, kept]
      simp
    · have there : s ∈ slots := (List.mem_cons.1 mem).resolve_left fun eq => own (eq ▸ rfl)
      rw [List.map_cons, List.filter_cons]
      simp only [beq_eq_false_iff_ne.2 own, bne_iff_ne.2 own, Bool.false_eq_true, if_false, if_true]
      exact ((ih others there).cons t).trans (List.Perm.swap _ _ _)

def touch (m : Memo) (k : Key) : Memo :=
  { m with
    slots := m.slots.map fun s => if s.key == k then { s with lastUse := m.clock } else s
    clock := m.clock + 1
    hits := m.hits + 1 }

def miss (m : Memo) : Memo := { m with clock := m.clock + 1, misses := m.misses + 1 }

theorem get_of_some (slot : m.slot? k = some s) : m.get k = (some s.value, m.touch k) := by
  rw [get, slot]
  rfl

theorem get_of_none (slot : m.slot? k = none) : m.get k = (none, m.miss) := by
  rw [get, slot]
  rfl

theorem Timed.touch (h : m.Timed) (mem : s ∈ m.slots) : (m.touch s.key).Timed := by
  refine h.fresh (map_touch_perm h.keys mem m.clock) rfl rfl rfl rfl ?_
  -- The entry itself does not count, and all entries together fit.
  refine Nat.lt_of_lt_of_le ?_ h.bounded
  exact List.length_filter_lt_length_iff_exists.2 ⟨s, mem, by simp⟩

theorem Timed.recency_touch (h : m.Timed) (mem : s ∈ m.slots) :
    (m.touch s.key).recency =
      { m.recency with
        entries := front s.key s.value m.recency.entries
        hits := m.recency.hits + 1 } := by
  have order : (m.touch s.key).byUse =
      { s with lastUse := m.clock } :: m.byUse.filter fun t => t.key != s.key :=
    h.byUse_fresh (map_touch_perm h.keys mem m.clock) rfl
  rw [recency_eq order, List.map_cons, map_entry_without]
  rfl

theorem Timed.miss (h : m.Timed) : m.miss.Timed where
  keys := h.keys
  times := h.times
  past s mem := Nat.lt_succ_of_lt (h.past s mem)
  bounded := h.bounded
  positive := h.positive

theorem Timed.get (h : m.Timed) (k : Key) : (m.get k).2.Timed := by
  cases slot : m.slot? k with
  | none =>
    rw [get_of_none slot]
    exact h.miss
  | some s =>
    obtain ⟨mem, rfl⟩ := mem_of_slot? slot
    rw [get_of_some slot]
    exact h.touch mem

theorem Timed.recency_get (h : m.Timed) (k : Key) :
    m.recency.get k = ((m.get k).1, (m.get k).2.recency) := by
  have value := h.valueIn_recency k
  cases slot : m.slot? k with
  | none =>
    rw [slot] at value
    rw [get_of_none slot, Recency.get, value]
    rfl
  | some s =>
    obtain ⟨mem, rfl⟩ := mem_of_slot? slot
    rw [slot] at value
    rw [get_of_some slot, Recency.get, value, h.recency_touch mem]
    rfl

/-! ### Making room -/

theorem oldest?_eq_none_iff : oldest? slots = none ↔ slots = [] := by
  cases slots with
  | nil => simp [oldest?]
  | cons s slots =>
    rw [oldest?]
    split
    · split <;> simp
    · simp

theorem oldest?_eq_some (h : oldest? slots = some s) :
    s ∈ slots ∧ ∀ t ∈ slots, s.lastUse ≤ t.lastUse := by
  induction slots generalizing s with
  | nil => cases h
  | cons u slots ih =>
    rw [oldest?] at h
    split at h
    · next t rest =>
      obtain ⟨mem, least⟩ := ih rest
      rw [List.forall_mem_cons]
      split at h
      · next older =>
        cases h
        exact ⟨List.mem_cons_of_mem u mem, Nat.le_of_lt older, least⟩
      · next newer =>
        cases h
        have le : u.lastUse ≤ t.lastUse := Nat.le_of_not_lt newer
        exact ⟨List.mem_cons_self, Nat.le_refl _, fun v there => Nat.le_trans le (least v there)⟩
    · next rest =>
      cases h
      rw [oldest?_eq_none_iff.1 rest]
      simp

theorem Timed.oldest?_eq (h : m.Timed) : oldest? m.slots = m.byUse.getLast? := by
  cases last : m.byUse.getLast? with
  | none =>
    have empty : m.slots = [] := (List.getLast?_eq_none_iff.1 last ▸ m.byUse_perm).nil_eq.symm
    rw [empty]
    rfl
  | some z =>
    obtain ⟨others, order⟩ := List.getLast?_eq_some_iff.1 last
    have there : ∀ {t}, t ∈ m.slots ↔ t ∈ others ++ [z] := fun {t} =>
      order ▸ m.byUse_perm.mem_iff.symm
    cases oldest : oldest? m.slots with
    | none =>
      have z_mem : z ∈ m.slots := there.2 (by simp)
      rw [oldest?_eq_none_iff.1 oldest] at z_mem
      cases z_mem
    | some s =>
      obtain ⟨mem, least⟩ := oldest?_eq_some oldest
      rcases List.mem_append.1 (there.1 mem) with newer | same
      · -- All entries but the last one are newer than that.
        have falling := order ▸ h.falling
        have later : z.lastUse < s.lastUse :=
          (List.pairwise_append.1 falling).2.2 s newer z (List.mem_singleton_self z)
        exact absurd (least z (there.2 (by simp))) (Nat.not_le_of_lt later)
      · rw [List.mem_singleton.1 same]

theorem Timed.byUse_evict (h : m.Timed) : m.evict.byUse = m.byUse.dropLast := by
  unfold Memo.evict
  rw [h.oldest?_eq]
  cases last : m.byUse.getLast? with
  | none => rw [List.getLast?_eq_none_iff.1 last, List.dropLast_nil]
  | some z =>
    obtain ⟨others, order⟩ := List.getLast?_eq_some_iff.1 last
    have keys : ((others ++ [z]).map Slot.key).Nodup :=
      order ▸ (m.byUse_perm.map Slot.key).nodup_iff.2 h.keys
    have apart : ∀ t ∈ others, t.key ≠ z.key := by
      rw [List.map_append, List.nodup_append] at keys
      exact fun t mem => keys.2.2 _ (List.mem_map_of_mem mem) _ (by simp)
    have kept : m.byUse.filter (fun t => t.key != z.key) = others := by
      rw [order, List.filter_append,
        List.filter_eq_self.2 fun t mem => bne_iff_ne.2 (apart t mem)]
      simp
    rw [order, List.dropLast_concat]
    refine byUse_eq (kept ▸ m.byUse_perm.filter _) ?_
    exact (List.pairwise_append.1 (order ▸ h.falling)).1

/-- What evicting changes: an entry may go, and is counted. -/
theorem evict_keeps (m : Memo) :
    m.evict.slots.Sublist m.slots ∧ m.evict.clock = m.clock ∧ m.evict.capacity = m.capacity ∧
      m.evict.hits = m.hits ∧ m.evict.misses = m.misses ∧
      m.evict.evictions ≤ m.evictions + 1 := by
  unfold Memo.evict
  split
  · exact ⟨List.filter_sublist, rfl, rfl, rfl, rfl, Nat.le_refl _⟩
  · exact ⟨List.Sublist.refl _, rfl, rfl, rfl, rfl, Nat.le_succ _⟩

theorem Timed.evict (h : m.Timed) : m.evict.Timed := by
  obtain ⟨sub, clock, capacity, _⟩ := m.evict_keeps
  exact
    { keys := h.keys.sublist (sub.map Slot.key)
      times := h.times.sublist (sub.map Slot.lastUse)
      past := fun s mem => clock ▸ h.past s (sub.mem mem)
      bounded := capacity ▸ Nat.le_trans sub.length_le h.bounded
      positive := capacity ▸ h.positive }

/-- Where there is an entry, the one that was used last of all goes, and is counted. -/
theorem Timed.recency_evict (h : m.Timed) (inhabited : 0 < m.size) :
    m.evict.recency =
      { m.recency with
        entries := m.recency.entries.dropLast
        evictions := m.evictions + 1 } := by
  have order := h.byUse_evict
  cases oldest : oldest? m.slots with
  | none =>
    rw [size, oldest?_eq_none_iff.1 oldest] at inhabited
    cases inhabited
  | some old =>
    rw [recency_eq order, List.map_dropLast, Memo.evict, oldest]
    rfl

/-! ### Inserting -/

def put (m : Memo) (k : Key) (value : String) : Memo :=
  { m with
    slots := ⟨k, value, m.clock⟩ :: m.slots.filter fun s => s.key != k
    clock := m.clock + 1 }

theorem length_without_recency (m : Memo) (k : Key) :
    (without k m.recency.entries).length = (m.slots.filter fun s => s.key != k).length := by
  rw [recency, ← map_entry_without, List.length_map]
  exact (m.byUse_perm.filter _).length_eq

theorem Timed.put (h : m.Timed) (room : (without k m.recency.entries).length < m.capacity)
    (value : String) : (m.put k value).Timed :=
  h.fresh (List.Perm.refl _) rfl rfl rfl rfl (length_without_recency m k ▸ room)

theorem Timed.recency_put (h : m.Timed) (k : Key) (value : String) :
    (m.put k value).recency = { m.recency with entries := front k value m.recency.entries } := by
  have order : (m.put k value).byUse =
      ⟨k, value, m.clock⟩ :: m.byUse.filter fun s => s.key != k :=
    h.byUse_fresh (List.Perm.refl _) rfl
  rw [recency_eq order, List.map_cons, map_entry_without]
  rfl

theorem Timed.insert_cases (h : m.Timed) (k : Key) (value : String) :
    (m.insert k value = m.put k value ∧ (without k m.recency.entries).length < m.capacity) ∨
    (m.insert k value = m.evict.put k value ∧ k ∉ m.recency.entries.map Prod.fst ∧
      m.size = m.capacity) := by
  cases slot : m.slot? k with
  | some s =>
    obtain ⟨mem, rfl⟩ := mem_of_slot? slot
    refine .inl ⟨by simp [Memo.insert, slot, Memo.put], ?_⟩
    have shorter := Recency.length_without_lt (mem_keys_recency.2 (List.mem_map_of_mem mem))
    rw [length_recency] at shorter
    exact Nat.lt_of_lt_of_le shorter h.bounded
  | none =>
    have absent : k ∉ m.recency.entries.map Prod.fst :=
      mem_keys_recency.not.2 (slot?_eq_none_iff.1 slot)
    by_cases full : m.capacity ≤ m.size
    · refine .inr ⟨?_, absent, Nat.le_antisymm h.bounded full⟩
      simp [Memo.insert, slot, full, Memo.put, m.evict_keeps.2.1]
    · refine .inl ⟨by simp [Memo.insert, slot, full, Memo.put], ?_⟩
      rw [Recency.without_eq_self absent, length_recency]
      exact Nat.lt_of_not_le full

theorem Timed.insert (h : m.Timed) (k : Key) (value : String) : (m.insert k value).Timed := by
  rcases h.insert_cases k value with ⟨eq, room⟩ | ⟨eq, absent, full⟩
  · exact eq ▸ h.put room value
  · have inhabited : 0 < m.size := full ▸ h.positive
    have gone : k ∉ m.evict.recency.entries.map Prod.fst := by
      rw [h.recency_evict inhabited]
      exact fun mem => absent ((List.dropLast_sublist _).map Prod.fst |>.mem mem)
    rw [eq]
    refine h.evict.put ?_ value
    rw [Recency.without_eq_self gone, h.recency_evict inhabited, List.length_dropLast,
      length_recency, m.evict_keeps.2.2.1, full]
    exact Nat.sub_lt h.positive Nat.one_pos

theorem Timed.recency_insert (h : m.Timed) (k : Key) (value : String) :
    m.recency.insert k value = (m.insert k value).recency := by
  rcases h.insert_cases k value with ⟨eq, room⟩ | ⟨eq, absent, full⟩
  · rw [eq, h.recency_put]
    exact Recency.insert_of_room value room
  · have inhabited : 0 < m.size := full ▸ h.positive
    rw [eq, h.evict.recency_put, h.recency_evict inhabited]
    have gone : k ∉ m.recency.entries.dropLast.map Prod.fst :=
      fun mem => absent ((List.dropLast_sublist _).map Prod.fst |>.mem mem)
    rw [Recency.insert_of_full value absent (length_recency m ▸ full) h.positive, front,
      Recency.without_eq_self gone]
    rfl

/-! ### All uses -/

theorem Timed.use (h : m.Timed) (u : Use) : (m.use u).2.Timed := by
  cases u with
  | get k => exact h.get k
  | insert k value => exact h.insert k value
  | clear =>
    exact
      { keys := List.nodup_nil
        times := List.nodup_nil
        past := nofun
        bounded := Nat.zero_le _
        positive := h.positive }

/-- A use finds what it finds in a memory without times, and changes the order of use alike. -/
theorem Timed.recency_use (h : m.Timed) (u : Use) :
    m.recency.use u = ((m.use u).1, (m.use u).2.recency) := by
  cases u with
  | get k => exact h.recency_get k
  | insert k value => exact congrArg (Prod.mk none) (h.recency_insert k value)
  | clear =>
    have order : m.clear.byUse = [] := List.mergeSort_nil
    exact congrArg (Prod.mk none) (recency_eq order).symm

theorem counts_recency (m : Memo) : m.recency.counts = m.counts := by
  rw [Recency.counts, length_recency]
  rfl

end ScopedQuery.Memo
