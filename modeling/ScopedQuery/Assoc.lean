set_option autoImplicit false

namespace ScopedQuery

abbrev Assoc (α : Type) := List (String × α)

namespace Assoc

variable {α : Type}

def find? (m : Assoc α) (name : String) : Option α :=
  (List.find? (fun e => e.1 == name) m).map Prod.snd

/-- The map with a value under a name. A name that is already there keeps its place. -/
def put (m : Assoc α) (name : String) (value : α) : Assoc α :=
  match m with
  | [] => [(name, value)]
  | (key, old) :: rest =>
    if key == name then (key, value) :: rest else (key, old) :: put rest name value

def ofEntries (entries : List (String × α)) : Assoc α :=
  entries.foldl (fun m e => put m e.1 e.2) []

def alter (m : Assoc α) (name : String) (f : Option α → α) : Assoc α :=
  put m name (f (find? m name))

theorem find?_put (m : Assoc α) (name other : String) (value : α) :
    find? (put m name value) other = if other = name then some value else find? m other := by
  induction m with
  | nil =>
    by_cases h : name = other
    · simp [put, find?, h]
    · simp [put, find?, h, Ne.symm h]
  | cons e rest ih =>
    obtain ⟨key, old⟩ := e
    unfold put
    by_cases hk : key = name
    · subst hk
      by_cases h : key = other
      · simp [find?, h]
      · simp [find?, h, Ne.symm h]
    · by_cases h : key = other
      · subst h
        simp [find?, hk]
      · simpa [find?, hk, h] using ih

end Assoc

end ScopedQuery
