import ScopedQuery.Text.Blank
import ScopedQuery.Text.Letter

set_option autoImplicit false

/-!
Scanning past quotations and parentheses. A quotation opens at any of the three quote marks and runs
to the next one of the same kind; parentheses count only outside quotations.
-/

namespace ScopedQuery.Text

def isQuote (c : Char) : Bool := c == singleQuote || c == doubleQuote || c == backtick

structure Nesting where
  depth : Nat
  quote : Option Char
  deriving DecidableEq

namespace Nesting

def top : Nesting := ⟨0, none⟩

def isTop (n : Nesting) : Bool := n.quote.isNone && n.depth == 0

/-- The standing after one more character. A closing parenthesis without an open one is passed
over. -/
def step (n : Nesting) (c : Char) : Nesting :=
  match n.quote with
  | some q => if c == q then ⟨n.depth, none⟩ else n
  | none =>
    if isQuote c then ⟨n.depth, some c⟩
    else if c == '(' then ⟨n.depth + 1, none⟩
    else if c == ')' then ⟨n.depth - 1, none⟩
    else n

end Nesting

def isMark (c : Char) : Bool := isQuote c || c == '(' || c == ')'

/-- The parts of a text between the separators that stand outside quotations and parentheses, when
the scan starts from a given standing. There is always at least one part. -/
def partsFrom (sep : Char) : Nesting → List Char → List (List Char)
  | _, [] => [[]]
  | n, c :: r =>
    if n.isTop && c == sep && !isMark c then [] :: partsFrom sep n r
    else match partsFrom sep (n.step c) r with
      | p :: ps => (c :: p) :: ps
      | [] => [[c]]

def parts (sep : Char) (cs : List Char) : List (List Char) := partsFrom sep .top cs

structure Span where
  start : Nat
  stop : Nat
  deriving DecidableEq, Repr

/-- Where the parts of a text stand in it, counted in bytes: `start` is where the part at hand
begins, and `offset` where the scan is. -/
def spansFrom (sep : Char) : Nesting → Nat → Nat → List Char → List Span
  | _, start, offset, [] => [⟨start, offset⟩]
  | n, start, offset, c :: r =>
    let next := offset + c.utf8Size
    if n.isTop && c == sep && !isMark c then ⟨start, offset⟩ :: spansFrom sep n next next r
    else spansFrom sep (n.step c) start next r

def spans (sep : Char) (text : String) : List Span := spansFrom sep .top 0 0 text.toList

theorem partsFrom_ne_nil (sep : Char) (n : Nesting) (cs : List Char) : partsFrom sep n cs ≠ [] := by
  cases cs with
  | nil => simp [partsFrom]
  | cons c r =>
    unfold partsFrom
    split
    · simp
    · split <;> simp

def weight : List (List Char) → Nat
  | [] => 0
  | p :: ps => p.length + 1 + weight ps

theorem weight_partsFrom (sep : Char) (n : Nesting) (cs : List Char) :
    weight (partsFrom sep n cs) = cs.length + 1 := by
  induction cs generalizing n with
  | nil => simp [partsFrom, weight]
  | cons c r ih =>
    unfold partsFrom
    split
    · simp [weight, ih, Nat.add_comm]
    · have rest := ih (n.step c)
      split
      · next p ps h => rw [h] at rest; simp [weight] at rest ⊢; omega
      · next h => exact absurd h (partsFrom_ne_nil _ _ _)

/-- The text inside an already opened parenthesis and the text behind the one that closes it. -/
def closingFrom : Nesting → List Char → Option (List Char × List Char)
  | _, [] => none
  | n, c :: r =>
    if n.isTop && c == ')' then some ([], r)
    else (closingFrom (n.step c) r).map fun (inside, rest) => (c :: inside, rest)

theorem length_of_closingFrom {n : Nesting} {cs inside rest : List Char}
    (h : closingFrom n cs = some (inside, rest)) : inside.length + 1 + rest.length = cs.length := by
  induction cs generalizing n inside with
  | nil => simp [closingFrom] at h
  | cons c r ih =>
    unfold closingFrom at h
    split at h
    · cases h
      simp [Nat.add_comm]
    · obtain ⟨⟨a, b⟩, found, eq⟩ := Option.map_eq_some_iff.1 h
      cases eq
      have := ih found
      simp
      omega

def closing? (cs : List Char) : Option (List Char × List Char) := closingFrom .top cs

structure Occurrence where
  left : List Char
  token : List Char
  right : List Char
  deriving DecidableEq

/-- The longest of the tokens that the text begins with. -/
def longestToken? (tokens : List (List Char)) (cs : List Char) : Option (List Char) :=
  tokens.foldl (fun best t =>
    if t.isPrefixOf cs && (best.map List.length).getD 0 ≤ t.length then some t else best) none

/-- The tokens at the top level of a text, from left to right. At each place the longest token is
taken and the scan goes on behind it; a token with nothing but blanks on its left is passed over.
`operand` tells whether a non-blank character has been seen, `skip` how many characters still belong
to the last token. -/
def occurrencesFrom (tokens : List (List Char)) :
    Bool → Nesting → Nat → List Char → List Occurrence
  | _, _, _, [] => []
  | operand, n, skip + 1, c :: r =>
    (occurrencesFrom tokens (operand || !isBlank c) n skip r).map fun o =>
      { o with left := c :: o.left }
  | operand, n, 0, c :: r =>
    let further (n : Nesting) (skip : Nat) : List Occurrence :=
      (occurrencesFrom tokens (operand || !isBlank c) n skip r).map fun o =>
        { o with left := c :: o.left }
    if n.isTop && !isMark c then
      match longestToken? tokens (c :: r) with
      | none => further n 0
      | some t =>
        if operand then ⟨[], t, (c :: r).drop t.length⟩ :: further n (t.length - 1)
        else further n (t.length - 1)
    else further (n.step c) 0

theorem mem_of_longestToken? {tokens : List (List Char)} {cs t : List Char}
    (h : longestToken? tokens cs = some t) : t ∈ tokens := by
  have general : ∀ (ts : List (List Char)) (best : Option (List Char)),
      ts.foldl (fun best t => if t.isPrefixOf cs && (best.map List.length).getD 0 ≤ t.length
        then some t else best) best = some t → t ∈ ts ∨ best = some t := by
    intro ts
    induction ts with
    | nil => intro best h; exact .inr h
    | cons u us ih =>
      intro best h
      rw [List.foldl_cons] at h
      rcases ih _ h with h | h
      · exact .inl (List.mem_cons_of_mem _ h)
      · split at h
        · cases h
          exact .inl List.mem_cons_self
        · exact .inr h
  simpa using general tokens none h

theorem length_of_mem_occurrencesFrom {tokens : List (List Char)} (ne : [] ∉ tokens)
    {operand : Bool} {n : Nesting} {skip : Nat} {cs : List Char} {o : Occurrence}
    (h : o ∈ occurrencesFrom tokens operand n skip cs) :
    o.left.length < cs.length ∧ o.right.length < cs.length := by
  induction cs generalizing operand n skip o with
  | nil => cases skip <;> simp [occurrencesFrom] at h
  | cons c r ih =>
    have further : ∀ (operand : Bool) (n : Nesting) (skip : Nat),
        o ∈ (occurrencesFrom tokens operand n skip r).map
          (fun p => { p with left := c :: p.left }) →
        o.left.length < (c :: r).length ∧ o.right.length < (c :: r).length := by
      intro operand n skip h
      obtain ⟨p, found, rfl⟩ := List.mem_map.1 h
      have := ih found
      simp
      omega
    cases skip with
    | succ k =>
      simp only [occurrencesFrom] at h
      exact further _ _ _ h
    | zero =>
      simp only [occurrencesFrom] at h
      split at h
      · split at h
        · exact further _ _ _ h
        · next t found =>
          have nonempty : t ≠ [] := fun e => ne (e ▸ mem_of_longestToken? found)
          have positive : 0 < t.length := List.length_pos_iff.2 nonempty
          split at h
          · rcases List.mem_cons.1 h with rfl | h
            · simp
              omega
            · exact further _ _ _ h
          · exact further _ _ _ h
      · exact further _ _ _ h

def occurrences (tokens : List (List Char)) (cs : List Char) : List Occurrence :=
  occurrencesFrom tokens false .top 0 cs

def Occurrence.offset (o : Occurrence) : Nat := (String.ofList o.left).utf8ByteSize

/-- The first occurrence, or the last one when `last` is set. -/
def findToken? (tokens : List (List Char)) (last : Bool) (cs : List Char) : Option Occurrence :=
  let found := occurrences tokens cs
  if last then found.getLast? else found.head?

theorem length_of_findToken? {tokens : List (List Char)} (ne : [] ∉ tokens) {last : Bool}
    {cs : List Char} {o : Occurrence} (h : findToken? tokens last cs = some o) :
    o.left.length < cs.length ∧ o.right.length < cs.length := by
  refine length_of_mem_occurrencesFrom ne (?_ : o ∈ occurrences tokens cs)
  unfold findToken? at h
  split at h
  · exact List.mem_of_getLast? h
  · exact List.mem_of_head? h

end ScopedQuery.Text
