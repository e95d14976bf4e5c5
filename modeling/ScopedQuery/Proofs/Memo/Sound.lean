import ScopedQuery.Memo.Sanitize

set_option autoImplicit false

namespace ScopedQuery.Memo

/-- Whether every remembered value is the sanitized form of its text. -/
def Sound (m : Memo) : Prop :=
  ∀ s ∈ m.slots, ScopedQuery.sanitize s.key.dialect s.key.text = .ok s.value

variable {m : Memo} {k : Key} {value : String}

theorem sound_empty (capacity : Nat) : (empty capacity).Sound := by
  intro s mem
  cases mem

theorem Sound.of_get (h : m.Sound) (found : (m.get k).1 = some value) :
    ScopedQuery.sanitize k.dialect k.text = .ok value := by
  unfold get at found
  split at found
  · next s slot =>
    cases found
    have mem : s ∈ m.slots := List.mem_of_find?_eq_some slot
    have key : s.key = k := by simpa using List.find?_some slot
    rw [← key]
    exact h s mem
  · cases found

theorem Sound.get (h : m.Sound) (k : Key) : (m.get k).2.Sound := by
  unfold Memo.get
  split
  · intro s mem
    obtain ⟨old, there, rfl⟩ := List.mem_map.1 mem
    -- A use changes the time of an entry and nothing else.
    have kept := h old there
    split <;> exact kept
  · exact h

theorem Sound.evict (h : m.Sound) : m.evict.Sound := by
  unfold Memo.evict
  split
  · intro s mem
    exact h s (List.mem_filter.1 mem).1
  · exact h

theorem Sound.insert (h : m.Sound) (made : ScopedQuery.sanitize k.dialect k.text = .ok value) :
    (m.insert k value).Sound := by
  have roomy : (if (m.slot? k).isNone && m.capacity ≤ m.size then m.evict else m).Sound := by
    split
    · exact h.evict
    · exact h
  intro s mem
  rcases List.mem_cons.1 mem with rfl | mem
  · exact made
  · exact roomy s (List.mem_filter.1 mem).1

theorem Sound.sanitize_eq (h : m.Sound) (d : Sql.Dialect) (text : String) :
    (m.sanitize d text).1 = ScopedQuery.sanitize d text := by
  unfold Memo.sanitize
  split
  · next found =>
    exact (h.of_get (congrArg Prod.fst found)).symm
  · split
    · next made => exact made.symm
    · next refused => exact refused.symm

theorem Sound.sanitize (h : m.Sound) (d : Sql.Dialect) (text : String) :
    (m.sanitize d text).2.Sound := by
  have used := h.get ⟨text, d⟩
  unfold Memo.sanitize
  split
  · next found =>
    rw [found] at used
    exact used
  · next missed =>
    rw [missed] at used
    split
    · next made => exact used.insert made
    · exact used

end ScopedQuery.Memo
