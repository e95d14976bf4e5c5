import ScopedQuery.Function.Argument
import ScopedQuery.Proofs.Text.Cut

set_option autoImplicit false

/-!
The levels at which the operators of an expression bind. An expression is cut at the loosest level
that has an operator in it, so that the parts of an expression have operators of their own only at
levels that are not looser.
-/

namespace ScopedQuery

def Sql.BinaryOp.rank : Sql.BinaryOp → Nat
  | .mul | .div => 1
  | .add | .sub => 2
  | .eq | .ne | .lt | .gt | .le | .ge => 3

namespace Function

open Sql Text

variable {cs r : List Char} {c : Char} {o : Occurrence} {op : BinaryOp} {k : Nat}

def operators : Nat → List (List Char)
  | 1 => ["*", "/"].map String.toList
  | 2 => ["+", "-"].map String.toList
  | 3 => ["!=", "<>", "<=", ">=", "=<", "=>", "=", "<", ">"].map String.toList
  | _ => []

/-- The operator of a rank at which a text is cut; only comparisons are cut at their first place. -/
def cutAt? (k : Nat) (cs : List Char) : Option Occurrence :=
  findToken? (operators k) (k != 3) cs

theorem splitAtOperator?_eq (cs : List Char) :
    splitAtOperator? cs = [3, 2, 1].findSome? fun k => cutAt? k cs := rfl

theorem operators_eq_nil (h : 3 < k) : operators k = [] := by
  unfold operators
  split <;> first | omega | rfl

theorem simple_operators (k : Nat) : Simple (operators k) := by
  refine simple_of_all ?_
  unfold operators
  split <;> decide

theorem length_of_mem_operators (h : k ≠ 3) : ∀ t ∈ operators k, t.length = 1 := by
  unfold operators
  split
  · decide
  · decide
  · exact absurd rfl h
  · nofun

theorem short_of_begins (h : begins (operators 3) c = false) (k : Nat) :
    ∀ t ∈ operators k, t.head? = some c → t.length = 1 := by
  intro t mem head
  by_cases three : k = 3
  · subst three
    exact absurd (beq_iff_eq.2 head) (List.any_eq_false.1 h t mem)
  · exact length_of_mem_operators three t mem

theorem rank_of_ofToken? {token : List Char} (mem : token ∈ operators k)
    (read : BinaryOp.ofToken? (String.ofList token) = some op) : op.rank = k := by
  have known : ∀ k ∈ [1, 2, 3], ∀ t ∈ operators k,
      (BinaryOp.ofToken? (String.ofList t)).map BinaryOp.rank = some k := by decide
  by_cases small : k ∈ [1, 2, 3]
  · have rank := known k small token mem
    rw [read] at rank
    exact Option.some.inj rank
  · unfold operators at mem
    split at mem
    · simp at small
    · simp at small
    · simp at small
    · cases mem

theorem mem_operators_of_ofToken? {token : List Char}
    (h : BinaryOp.ofToken? (String.ofList token) = some op) : token ∈ operators op.rank := by
  have known {text : String} (h : BinaryOp.ofToken? text = some op) :
      text.toList ∈ operators op.rank := by
    unfold BinaryOp.ofToken? at h
    split at h <;> cases h <;> decide
  simpa using known h

theorem rank_mem (op : BinaryOp) : op.rank ∈ [3, 2, 1] := by cases op <;> decide

theorem begins_of_mem_operators {token : List Char} {m : Nat} (mem : token ∈ operators k)
    (looser : k < m) : ∀ c ∈ token, begins (operators m) c = false := by
  by_cases large : 3 < m
  · rw [operators_eq_nil large]
    exact fun _ _ => rfl
  · have apart : ∀ k ∈ [0, 1, 2], ∀ m ∈ [1, 2, 3], k < m → ∀ token ∈ operators k,
        token.all fun c => !begins (operators m) c := by decide
    have each := apart k (by simp; omega) m (by simp; omega) looser token mem
    simpa using List.all_eq_true.1 each

def isOperatorChar (c : Char) : Bool := ['!', '=', '<', '>', '+', '-', '*', '/'].contains c

theorem isOperatorChar_of_begins (k : Nat) (h : isOperatorChar c = false) :
    begins (operators k) c = false := by
  rw [begins, List.any_eq_false]
  intro t mem head
  have all : (operators k).all fun t => t.head?.all isOperatorChar := by
    unfold operators
    split <;> decide
  have first := List.all_eq_true.1 all t mem
  rw [beq_iff_eq.1 head, Option.all_some, h] at first
  cases first

theorem splitAtOperator?_eq_some : splitAtOperator? cs = some o ↔
    ∃ k ∈ [3, 2, 1], cutAt? k cs = some o ∧ ∀ j ∈ [3, 2, 1], k < j → cutAt? j cs = none := by
  rw [splitAtOperator?_eq]
  simp only [List.findSome?_cons, List.findSome?_nil, List.mem_cons, List.not_mem_nil, or_false,
    exists_eq_or_imp, forall_eq_or_imp, exists_eq_left, forall_eq]
  cases cutAt? 3 cs <;> cases cutAt? 2 cs <;> cases cutAt? 1 cs <;> simp

section Parts

variable (solid : isBlank c = false) (lead : begins (operators 3) c = false)

include solid lead

theorem cutAt?_eq_none_iff (k : Nat) :
    cutAt? k (c :: r) = none ↔ Free (isToken (operators k)) (c :: r) :=
  findToken?_eq_none_iff (simple_operators k) solid (short_of_begins lead k)

theorem splitAtOperator?_eq_none (free : Free isOperatorChar (c :: r)) :
    splitAtOperator? (c :: r) = none := by
  rw [splitAtOperator?_eq, List.findSome?_eq_none_iff]
  intro k _
  exact (cutAt?_eq_none_iff solid lead k).2
    (free.mono fun x other => isToken_of_begins (isOperatorChar_of_begins k other))

variable (cut : splitAtOperator? (c :: r) = some o)
  (token : BinaryOp.ofToken? (String.ofList o.token) = some op)

omit solid lead in
include cut token in
theorem cutAt?_of_splitAtOperator? : cutAt? op.rank (c :: r) = some o ∧
    ∀ j ∈ [3, 2, 1], op.rank < j → cutAt? j (c :: r) = none := by
  obtain ⟨k, _, found, looser⟩ := splitAtOperator?_eq_some.1 cut
  have mem : o ∈ occurrences (operators k) (c :: r) := by
    unfold cutAt? findToken? at found
    split at found
    · exact List.mem_of_getLast? found
    · exact List.mem_of_head? found
  obtain rfl := rank_of_ofToken? (text_of_mem_occurrencesFrom mem).1 token
  exact ⟨found, looser⟩

include cut token

theorem free_of_looser (looser : op.rank < k) : Free (isToken (operators k)) (c :: r) := by
  by_cases large : 3 < k
  · rw [operators_eq_nil large]
    exact Nesting.avoids_of_forall fun _ _ => rfl
  · have among : k ∈ [3, 2, 1] := by simp; omega
    exact (cutAt?_eq_none_iff solid lead k).1
      ((cutAt?_of_splitAtOperator? cut token).2 k among looser)

theorem free_left (comparison : op.rank = 3) : Free (isToken (operators 3)) o.left := by
  have found := (cutAt?_of_splitAtOperator? cut token).1
  rw [comparison] at found
  exact free_left_of_findToken? (simple_operators 3) solid (short_of_begins lead 3) found

/-- Behind the last operator of a rank there is none of its rank or a looser one. -/
theorem avoids_right (arithmetic : op.rank ≠ 3) (le : op.rank ≤ k) :
    Nesting.top.Avoids (isToken (operators k)) o.right := by
  have single := length_of_mem_operators arithmetic
  have last : (occurrences (operators op.rank) (c :: r)).getLast? = some o := by
    have found := (cutAt?_of_splitAtOperator? cut token).1
    rwa [cutAt?, show (op.rank != 3) = true by simpa using arithmetic] at found
  rcases Nat.eq_or_lt_of_le le with rfl | looser
  · exact avoids_of_getLast? single (simple_operators _) last
  · have mem := List.mem_of_getLast? last
    obtain ⟨known, whole⟩ := text_of_mem_occurrencesFrom mem
    have ne : o.left ++ o.token ≠ [] :=
      List.append_ne_nil_of_right_ne_nil _ (List.ne_nil_of_length_pos (by simp [single _ known]))
    have stays : Nesting.top.scan (o.left ++ o.token) = .top := by
      rw [Nesting.scan_append, scan_left_of_mem single mem]
      exact Nesting.scan_of_not_isMark rfl ((simple_operators op.rank).unmarked _ known)
    have free := free_of_looser solid lead cut token looser
    rw [← whole, free_append ne, stays] at free
    exact free.2

end Parts

end Function

end ScopedQuery
