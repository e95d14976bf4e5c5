import Mathlib.Data.List.Perm.Basic
import Mathlib.Data.Option.Basic
import ScopedQuery.Sql.Statement

set_option autoImplicit false

/-!
What a lookup in one table answers. A lookup has comparisons for conditions and neither joins nor
groups nor limits. Its answer is not a function of the rows where its orderings leave two of them in
any order, so that answering is a relation.
-/

namespace ScopedQuery.Sql

structure Record where
  table : Table
  value : String → Literal

/-- Whether a value is less than another one; unknown unless both are whole numbers or both are
texts. -/
def Literal.less? : Literal → Literal → Option Bool
  | .int a, .int b => some (a < b)
  | .text a, .text b => some (a < b)
  | _, _ => none

def BinaryOp.outcome (op : BinaryOp) (a b : Literal) : Option Bool := do
  let less ← a.less? b
  let greater ← b.less? a
  match op with
  | eq => some (!less && !greater)
  | ne => some (less || greater)
  | lt => some less
  | gt => some greater
  | le => some !greater
  | ge => some !less
  | add | sub | mul | div => none

namespace BinaryOp

theorem outcome_eq_text (a b : String) :
    (eq.outcome (.text a) (.text b) == some true) = (a == b) := by
  change (some (!decide (a < b) && !decide (b < a)) == some true) = _
  rw [Bool.eq_iff_iff]
  constructor
  · intro h
    have apart : ¬ a < b ∧ ¬ b < a := by simpa using h
    exact beq_iff_eq.2 (String.le_antisymm apart.2 apart.1)
  · intro h
    obtain rfl := beq_iff_eq.1 h
    simp only [String.lt_irrefl, decide_false, Bool.not_false, Bool.and_self, beq_self_eq_true]

theorem outcome_lt_int (a b : Int64) :
    (lt.outcome (.int a) (.int b) == some true) = decide (a < b) := by
  change (some (decide (a < b)) == some true) = _
  simp

theorem outcome_gt_int (a b : Int64) :
    (gt.outcome (.int a) (.int b) == some true) = decide (b < a) :=
  outcome_lt_int b a

end BinaryOp

def Term.value? (r : Record) : Term → Option Literal
  | column c => if c.table = r.table then some (r.value c.name) else none
  | literal v => some v
  | _ => none

def Criterion.outcome? (r : Record) : Criterion → Option Bool
  | compare left op right => do op.outcome (← left.value? r) (← right.value? r)
  | _ => none

def Ordering.puts (o : Ordering) (a b : Record) : Bool :=
  match o.term.value? a, o.term.value? b with
  | some x, some y =>
    match o.direction with
    | .asc => x.less? y == some true
    | .desc => y.less? x == some true
  | _, _ => false

/-- Whether a row may come before another one: the first ordering that puts either of them before
the other decides. -/
def Precedes : List Ordering → Record → Record → Prop
  | [], _, _ => True
  | o :: os, a, b => o.puts a b ∨ o.puts b a = false ∧ Precedes os a b

namespace Query

structure IsLookup (q : Query) : Prop where
  mode : q.mode = .select
  joins : q.joins = []
  comparisons : ∀ c ∈ q.wheres, ∃ left op right, c = .compare left op right
  groupBys : q.groupBys = []
  limit : q.limit = none
  offset : q.offset = none
  distinct : q.distinct = false

def picks (q : Query) (r : Record) : Bool := q.wheres.all fun c => c.outcome? r == some true

def values? (q : Query) (r : Record) : Option (List Literal) := q.selects.mapM (Term.value? r)

/-- Whether a lookup can answer with some values for the rows of its table. -/
structure Answers (q : Query) (rows : List Record) (answer : List (List Literal)) : Prop where
  lookup : q.IsLookup
  rows : ∃ picked : List Record, picked.Perm (rows.filter q.picks) ∧
    picked.Pairwise (Precedes q.orderBys) ∧ picked.map q.values? = answer.map some

variable {q : Query} {rows target : List Record} {values : List (List Literal)}

/-- Where there is one way only to put the rows that are picked in order, there is one answer. -/
theorem answers_iff (lookup : q.IsLookup) (picked : target.Perm (rows.filter q.picks))
    (unique : ∀ other : List Record, other.Perm target → other.Pairwise (Precedes q.orderBys) →
      other = target)
    (sorted : target.Pairwise (Precedes q.orderBys))
    (selected : target.map q.values? = values.map some) (answer : List (List Literal)) :
    q.Answers rows answer ↔ answer = values := by
  constructor
  · rintro ⟨_, other, perm, ordered, made⟩
    rw [unique other (perm.trans picked.symm) ordered, selected] at made
    exact (List.map_injective_iff.2 (Option.some_injective _) made).symm
  · rintro rfl
    exact ⟨lookup, target, picked, sorted, selected⟩

end Query

end ScopedQuery.Sql
