import ScopedQuery.Proofs.Request.Memory
import ScopedQuery.Request.Children

set_option autoImplicit false

namespace ScopedQuery

open Sql

open Memo (Alike)

inductive Call where
  | query (request : Request) (viewer : Viewer)
  | children (child : ChildQuery) (parents : List String) (viewer : Viewer)

namespace Call

def answer (c : Catalog) (s : Settings) (m : Memo) : Call → Result Query × Memo
  | query r v => r.build c s v m
  | children child parents v => child.build c s v parents m

def answers (c : Catalog) (s : Settings) : List Call → Memo → List (Result Query) × Memo
  | [], m => ([], m)
  | call :: calls, m =>
    let (first, m) := call.answer c s m
    let (others, m) := answers c s calls m
    (first :: others, m)

def freshAnswer (c : Catalog) (s : Settings) (call : Call) : Result Query :=
  (call.answer c s (.empty s.cacheSize)).1

variable {c : Catalog} {s : Settings} {m m' : Memo}

theorem alike_answer (h : m.Sound) (h' : m'.Sound) (call : Call) :
    Alike (call.answer c s m) (call.answer c s m') := by
  cases call with
  | query r v => exact Request.alike_build h h' s r
  | children child parents v => exact Request.alike_build h h' s (child.request parents)

/-- A run of calls from a sound memory answers each of them as a fresh memory does, and leaves a
sound memory. -/
theorem answers_of_sound (h : m.Sound) (calls : List Call) :
    (answers c s calls m).1 = calls.map (freshAnswer c s) ∧ (answers c s calls m).2.Sound := by
  induction calls generalizing m with
  | nil => exact ⟨rfl, h⟩
  | cons call calls ih =>
    have step : Alike (call.answer c s m) (call.answer c s (.empty s.cacheSize)) :=
      alike_answer h (Memo.sound_empty s.cacheSize) call
    -- Failing or not, the call leaves a sound memory to the ones behind it.
    obtain ⟨others, kept⟩ := ih step.left
    refine ⟨?_, kept⟩
    calc (answers c s (call :: calls) m).1
      _ = (call.answer c s m).1 :: (answers c s calls (call.answer c s m).2).1 := rfl
      _ = freshAnswer c s call :: calls.map (freshAnswer c s) :=
        congrArg₂ List.cons step.value others

/-- Builds do not depend on their history: in every sequence of calls, each one is answered as if it
were the only one. -/
theorem answers_eq_map_freshAnswer (c : Catalog) (s : Settings) (calls : List Call) :
    (answers c s calls (.empty s.cacheSize)).1 = calls.map (freshAnswer c s) :=
  (answers_of_sound (Memo.sound_empty s.cacheSize) calls).1

end Call

end ScopedQuery
