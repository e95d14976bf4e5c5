import ScopedQuery.Proofs.Memo.Order

set_option autoImplicit false

namespace ScopedQuery.Memo

variable {m : Memo}

def run {σ : Type} (use : σ → Use → Option String × σ) (counts : σ → Counts) :
    σ → List Use → List (Option String × Counts) × σ
  | m, [] => ([], m)
  | m, u :: uses =>
    let (found, m) := use m u
    let (others, last) := run use counts m uses
    ((found, counts m) :: others, last)

def after (m : Memo) (uses : List Use) : Memo := (run use counts m uses).2

theorem after_cons (u : Use) (uses : List Use) :
    m.after (u :: uses) = (m.use u).2.after uses := rfl

theorem Timed.run_recency (h : m.Timed) (uses : List Use) :
    run Recency.use Recency.counts m.recency uses =
      ((run Memo.use counts m uses).1, (m.after uses).recency) := by
  induction uses generalizing m with
  | nil => rfl
  | cons u uses ih =>
    rw [run, h.recency_use u]
    simp only [ih (h.use u), counts_recency]
    rfl

def Use.isGet : Use → Bool
  | .get _ => true
  | .insert _ _ | .clear => false

theorem use_adds (m : Memo) (u : Use) :
    (m.use u).2.capacity = m.capacity ∧
      (m.use u).2.hits + (m.use u).2.misses = m.hits + m.misses + (if u.isGet then 1 else 0) ∧
      (m.use u).2.clock ≤ m.clock + 1 ∧ (m.use u).2.evictions ≤ m.evictions + 1 := by
  cases u with
  | get k =>
    cases slot : m.slot? k with
    | none =>
      rw [use, get_of_none slot]
      exact ⟨rfl, rfl, Nat.le_refl _, Nat.le_succ _⟩
    | some s =>
      rw [use, get_of_some slot]
      exact ⟨rfl, Nat.add_right_comm _ _ _, Nat.le_refl _, Nat.le_succ _⟩
  | insert k value =>
    obtain ⟨_, _, capacity, hits, misses, evictions⟩ := m.evict_keeps
    have lookups : m.evict.hits + m.evict.misses = m.hits + m.misses := by rw [hits, misses]
    rw [use, insert]
    split
    · exact ⟨capacity, lookups, Nat.le_refl _, evictions⟩
    · exact ⟨rfl, rfl, Nat.le_refl _, Nat.le_succ _⟩
  | clear => exact ⟨rfl, rfl, Nat.le_succ _, Nat.le_succ _⟩

theorem after_adds (m : Memo) (uses : List Use) :
    (m.after uses).capacity = m.capacity ∧
      (m.after uses).hits + (m.after uses).misses =
        m.hits + m.misses + uses.countP Use.isGet ∧
      (m.after uses).clock ≤ m.clock + uses.length ∧
      (m.after uses).evictions ≤ m.evictions + uses.length := by
  induction uses generalizing m with
  | nil => exact ⟨rfl, rfl, Nat.le_refl _, Nat.le_refl _⟩
  | cons u uses ih =>
    obtain ⟨capacity, lookups, clock, evictions⟩ := m.use_adds u
    obtain ⟨capacity', lookups', clock', evictions'⟩ := ih (m.use u).2
    rw [after_cons, List.countP_cons, List.length_cons]
    refine ⟨capacity'.trans capacity, ?_, ?_, ?_⟩ <;> omega

theorem Timed.after (h : m.Timed) (uses : List Use) : (m.after uses).Timed := by
  induction uses generalizing m with
  | nil => exact h
  | cons u uses ih => exact ih (h.use u)

/-- A memory that keeps times is exact. Whatever it is used for, each use finds what it finds in a
memory without times, all counts are the same after it, and the entries are those of that memory, in
its order and with no key twice; so there are never too many of them, and each look-up is a hit or a
miss. No time and no count exceeds the number of uses, so that words of 64 bits hold them through
fewer than 2 ^ 64 uses. -/
theorem run_recency_empty (n : Nat) (uses : List Use) :
    run Recency.use Recency.counts (.empty n) uses =
        ((run use counts (empty n) uses).1, ((empty n).after uses).recency) ∧
      (((empty n).after uses).recency.entries.map Prod.fst).Nodup ∧
      ((empty n).after uses).size ≤ max n 1 ∧
      ((empty n).after uses).hits + ((empty n).after uses).misses = uses.countP Use.isGet ∧
      ((empty n).after uses).clock ≤ uses.length ∧
      ((empty n).after uses).evictions ≤ uses.length := by
  have timed := (timed_empty n).after uses
  obtain ⟨capacity, lookups, clock, evictions⟩ := (empty n).after_adds uses
  refine ⟨?_, timed.distinct, ?_, ?_, ?_, ?_⟩
  · rw [← recency_empty]
    exact (timed_empty n).run_recency uses
  · exact timed.bounded.trans capacity.le
  · exact lookups.trans (Nat.zero_add _)
  · exact clock.trans (Nat.zero_add _).le
  · exact evictions.trans (Nat.zero_add _).le

end ScopedQuery.Memo
