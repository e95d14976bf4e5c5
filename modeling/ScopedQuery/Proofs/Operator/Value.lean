import Mathlib.Algebra.Order.Ring.Rat
import Mathlib.Tactic.NormNum
import ScopedQuery.Proofs.Function.Level
import ScopedQuery.Proofs.Operator.Precedence

set_option autoImplicit false

/-!
The value of an arithmetic expression, and the value that comes out when its operands and operators
are taken from left to right, products before sums, with no regard to how they were grouped. The
two agree where each operator's operands bind tightly enough, and where the operands can have any
value they agree only there.
-/

namespace ScopedQuery.Operator

inductive Calc where
  | add | sub | mul | div
  deriving DecidableEq, Repr

namespace Calc

def op : Calc → Sql.BinaryOp
  | add => .add
  | sub => .sub
  | mul => .mul
  | div => .div

instance : Ranked Calc where
  rank k := k.op.rank
  rank_pos k := by cases k <;> decide

def apply : Calc → ℚ → ℚ → Option ℚ
  | add, a, b => some (a + b)
  | sub, a, b => some (a - b)
  | mul, a, b => some (a * b)
  | div, a, b => if b = 0 then none else some (a / b)

def neutral : Calc → ℤ
  | add | sub => 0
  | mul | div => 1

/-- How loosely the right operand may bind without parentheses around it: a sum can be added and a
product be multiplied by as it stands. -/
def limit : Calc → Nat
  | add => 2
  | sub | mul => 1
  | div => 0

variable {k : Calc}

theorem eq_of_sum (sum : 1 < Ranked.rank k) : k = add ∨ k = sub := by
  cases k with
  | add | sub => simp
  | mul | div => exact absurd sum (by decide)

theorem eq_of_product (product : Ranked.rank k ≤ 1) : k = mul ∨ k = div := by
  cases k with
  | add | sub => exact absurd product (by decide)
  | mul | div => simp

theorem ne_div (fits : 1 ≤ k.limit) : k ≠ div := by
  rintro rfl
  exact absurd fits (by decide)

end Calc

/-! ### From left to right -/

structure Running where
  sum : ℚ
  product : ℚ

namespace Running

def start : Running := ⟨0, 0⟩

def total (r : Running) : ℚ := r.sum + r.product

def step (r : Running) : Calc → ℚ → Option Running
  | .add, x => some ⟨r.total, x⟩
  | .sub, x => some ⟨r.total, -x⟩
  | .mul, x => some ⟨r.sum, r.product * x⟩
  | .div, x => if x = 0 then none else some ⟨r.sum, r.product / x⟩

variable {k o : Calc} {r : Running}

/-- A factor can be taken into an operand in advance, unless the operand divides. -/
theorem step_apply (product : Ranked.rank o ≤ 1) (fits : 1 ≤ k.limit) (a b : ℚ) :
    (r.step k a).bind (fun r => r.step o b) = (o.apply a b).bind (r.step k) := by
  rcases Calc.eq_of_product product with rfl | rfl
  · cases k with
    | add | sub | mul => simp [step, Calc.apply, mul_assoc]
    | div => exact absurd rfl (Calc.ne_div fits)
  · by_cases zero : b = 0
    · simp [step, Calc.apply, zero]
    · cases k with
      | add | sub | mul => simp [step, Calc.apply, zero, mul_div_assoc, neg_div]
      | div => exact absurd rfl (Calc.ne_div fits)

theorem total_step_neutral (r : Running) (k : Calc) :
    (r.step k k.neutral).map total = some r.total := by
  cases k <;> simp [step, Calc.neutral, total]

end Running

namespace Tree

variable {α : Type}

def value : Tree ℤ Calc → Option ℚ
  | leaf n => some n
  | join left k right => left.value.bind fun a => right.value.bind fun b => k.apply a b

def feed : Tree ℤ Calc → Calc → Running → Option Running
  | leaf n, k, r => r.step k n
  | join left o right, k, r => (left.feed k r).bind (right.feed o)

theorem feed_eq_foldlM (t : Tree ℤ Calc) (k : Calc) (r : Running) :
    t.feed k r = ((k, t.first) :: t.links).foldlM (fun r l => r.step l.1 l.2) r := by
  induction t generalizing k r with
  | leaf n => simp [feed, first, links]
  | join left o right ihl ihr =>
    rw [feed, ihl, funext (ihr o)]
    simp only [first, links, ← List.cons_append, List.foldlM_append]
    rfl

/-! ### Where no parentheses are needed -/

/-- Whether every operator's operands bind tightly enough to stand without parentheses. -/
def Bare : Tree α Calc → Prop
  | leaf _ => True
  | join left k right => left.Bare ∧ right.Bare ∧ left.rank ≤ Ranked.rank k ∧ right.rank ≤ k.limit

instance decidableBare : (t : Tree α Calc) → Decidable t.Bare
  | leaf _ => inferInstanceAs (Decidable True)
  | join left k right =>
    have := decidableBare left
    have := decidableBare right
    inferInstanceAs (Decidable
      (left.Bare ∧ right.Bare ∧ left.rank ≤ Ranked.rank k ∧ right.rank ≤ k.limit))

variable {t left right : Tree ℤ Calc} {k o : Calc} {r : Running}

theorem rank_le_limit_add (t : Tree α Calc) : t.rank ≤ Calc.add.limit := by
  cases t with
  | leaf a => exact Nat.zero_le _
  | join left k right =>
    have all : ∀ k : Calc, Ranked.rank k ≤ 2 := by
      intro k
      cases k <;> decide
    exact all k

theorem Standard.bare {t : Tree α Calc} (h : t.Standard) : t.Bare := by
  induction t with
  | leaf a => trivial
  | join left k right ihl ihr =>
    obtain ⟨hl, hr, le, lt⟩ := h
    refine ⟨ihl hl, ihr hr, le, ?_⟩
    have tight : ∀ k : Calc, Ranked.rank k ≤ k.limit + 1 := by
      intro k
      cases k <;> decide
    exact Nat.le_of_lt_succ (Nat.lt_of_lt_of_le lt (tight k))

/-- A product is taken in as one operand, as long as it is not divided by. -/
theorem Bare.feed_eq (h : t.Bare) (product : t.rank ≤ 1) (fits : t.rank ≤ k.limit) :
    t.feed k r = t.value.bind (r.step k) := by
  induction t generalizing k r with
  | leaf n => rfl
  | join left o right ihl ihr =>
    obtain ⟨hl, hr, le, within⟩ := h
    have factor : Ranked.rank o ≤ 1 := product
    have below : o.limit ≤ 1 := by
      rcases Calc.eq_of_product factor with rfl | rfl <;> decide
    have least : 1 ≤ k.limit := Nat.le_trans (Ranked.rank_pos o) fits
    have front : left.feed k r = left.value.bind (r.step k) :=
      ihl hl (Nat.le_trans le factor) (Nat.le_trans le fits)
    have back : right.feed o = fun r => right.value.bind (r.step o) :=
      funext fun r => ihr hr (Nat.le_trans within below) within
    rw [feed, front, back, value]
    cases left.value with
    | none => rfl
    | some a =>
      cases right.value with
      | none => simp
      | some b => exact Running.step_apply factor least a b

/-- Behind an operator that adds or subtracts, only the total in front of it counts. -/
theorem feed_congr {r r' : Running} (sum : 1 < Ranked.rank k) (same : r.total = r'.total) :
    t.feed k r = t.feed k r' := by
  induction t with
  | leaf n =>
    rcases Calc.eq_of_sum sum with rfl | rfl <;> simp only [feed, Running.step, same]
  | join left o right ihl _ => rw [feed, feed, ihl]

theorem total_step_of_sum (sum : 1 < Ranked.rank k) (r : Running) (b : ℚ) :
    (r.step k b).map Running.total = k.apply r.total b := by
  rcases Calc.eq_of_sum sum with rfl | rfl <;>
    simp [Running.step, Running.total, Calc.apply, sub_eq_add_neg]

/-- Behind an operator that may stand in front of it, an expression changes the total as its value
would do. -/
theorem Bare.total_feed (h : t.Bare) (fits : t.rank ≤ k.limit) :
    (t.feed k r).map Running.total = (t.value.bind (r.step k)).map Running.total := by
  induction t generalizing k r with
  | leaf n => rfl
  | join left o right ihl ihr =>
    by_cases product : Ranked.rank o ≤ 1
    · rw [h.feed_eq product fits]
    obtain ⟨hl, hr, le, within⟩ := h
    have sum : 1 < Ranked.rank o := Nat.lt_of_not_le product
    -- Only behind an addition a sum may stand, and its parts join the total one after the other.
    obtain rfl : k = .add := by
      cases k with
      | add => rfl
      | sub | mul | div => exact absurd (Nat.le_trans sum fits) (by decide)
    have front : (left.feed .add r).map Running.total =
        left.value.map fun a => r.total + a := by
      rw [ihl hl (Nat.le_trans le fits)]
      cases left.value <;> rfl
    have back (r' : Running) : (right.feed o r').map Running.total =
        right.value.bind fun b => o.apply r'.total b := by
      rw [ihr hr within, Option.map_bind]
      exact congrArg _ (funext (total_step_of_sum sum r'))
    have parts : ((left.feed .add r).bind (right.feed o)).map Running.total =
        ((left.feed .add r).map Running.total).bind fun x =>
          right.value.bind fun b => o.apply x b := by
      rw [Option.map_bind, Option.bind_map]
      exact congrArg _ (funext back)
    rw [feed, parts, front, value]
    cases left.value with
    | none => rfl
    | some a =>
      cases right.value with
      | none => rfl
      | some b =>
        rcases Calc.eq_of_sum sum with rfl | rfl <;>
          simp [Running.step, Running.total, Calc.apply, add_assoc, add_sub_assoc]

/-- An expression without need of parentheses has the value that comes out from left to right. -/
theorem Bare.value_eq (h : t.Bare) :
    t.value = (t.feed .add .start).map Running.total := by
  rw [h.total_feed t.rank_le_limit_add]
  cases t.value with
  | none => rfl
  | some v => simp [Running.step, Running.start, Running.total]

/-- What is read from left to right is the value of the standard tree. -/
theorem value_regrouped (t : Tree ℤ Calc) :
    t.regrouped.value = (t.feed .add .start).map Running.total := by
  rw [t.standard_regrouped.bare.value_eq, feed_eq_foldlM, feed_eq_foldlM, first_regrouped,
    links_regrouped]

theorem Bare.map {β : Type} {t : Tree α Calc} (h : t.Bare) (f : α → β) : (t.map f).Bare := by
  induction t with
  | leaf a => trivial
  | join left k right ihl ihr =>
    obtain ⟨hl, hr, le, within⟩ := h
    refine ⟨ihl hl, ihr hr, ?_, ?_⟩
    · rwa [rank_map]
    · rwa [rank_map]

/-! ### Operands with any value -/

def Fills : Tree ℤ Calc → Tree α Calc → Prop
  | leaf _, leaf _ => True
  | join left k right, join left' k' right' => left.Fills left' ∧ k = k' ∧ right.Fills right'
  | _, _ => False

def fill (n : ℤ) : Tree α Calc → Tree ℤ Calc
  | leaf _ => leaf n
  | join left k right => join (left.fill n) k (right.fill k.neutral)

section Fill

variable {shape : Tree α Calc} {n : ℤ}

theorem fills_fill (shape : Tree α Calc) (n : ℤ) : (shape.fill n).Fills shape := by
  induction shape generalizing n with
  | leaf a => trivial
  | join left k right ihl ihr => exact ⟨ihl n, rfl, ihr k.neutral⟩

theorem rank_fill (shape : Tree α Calc) (n : ℤ) : (shape.fill n).rank = shape.rank := by
  cases shape <;> rfl

theorem Bare.fill (h : shape.Bare) (n : ℤ) : (shape.fill n).Bare := by
  induction shape generalizing n with
  | leaf a => trivial
  | join left k right ihl ihr =>
    obtain ⟨hl, hr, le, within⟩ := h
    refine ⟨ihl hl n, ihr hr k.neutral, ?_, ?_⟩
    · rwa [rank_fill]
    · rwa [rank_fill]

theorem value_fill (shape : Tree α Calc) (n : ℤ) : (shape.fill n).value = some (n : ℚ) := by
  induction shape generalizing n with
  | leaf a => rfl
  | join left k right ihl ihr =>
    rw [Tree.fill, value, ihl, ihr]
    cases k <;> simp [Calc.apply, Calc.neutral]

theorem total_feed_fill (shape : Tree α Calc) (n : ℤ) (k : Calc) (r : Running) :
    ((shape.fill n).feed k r).map Running.total = (r.step k n).map Running.total := by
  induction shape generalizing n k r with
  | leaf a => rfl
  | join left o right ihl ihr =>
    have back (r' : Running) :
        ((right.fill o.neutral).feed o r').map Running.total = some r'.total := by
      rw [ihr, r'.total_step_neutral]
    rw [Tree.fill, feed, Option.map_bind, ← ihl n k r]
    rw [Option.map_eq_bind]
    exact congrArg _ (funext back)

/-- Behind a sum without a product, what changes nothing leaves both as they are. -/
theorem feed_fill_neutral (shape : Tree α Calc) (k : Calc) (x : ℚ) :
    (shape.fill k.neutral).feed k ⟨x, 0⟩ = some ⟨x, 0⟩ := by
  induction shape generalizing k with
  | leaf a => cases k <;> simp [Tree.fill, feed, Running.step, Calc.neutral, Running.total]
  | join left o right ihl ihr =>
    rw [Tree.fill, feed, ihl, Option.bind_some, ihr]

end Fill

/-- What stands in front of an expression behind an operator: a product where the operator goes on
with one, and nothing otherwise. -/
def before : Calc → ℤ → Running
  | .add, _ | .sub, _ => .start
  | .mul, p | .div, p => ⟨0, p⟩

/-- Whether an expression means from left to right what it means as a whole, whatever its operands
are, behind an operator. -/
def Agrees (k : Calc) (shape : Tree α Calc) : Prop :=
  ∀ u : Tree ℤ Calc, u.Fills shape → ∀ p : ℤ,
    (u.feed k (before k p)).map Running.total =
      (u.value.bind ((before k p).step k)).map Running.total

section Agrees

variable {x y : Tree α Calc}

theorem Agrees.front (h : Agrees k (join x o y)) : Agrees k x := by
  intro u fills p
  have whole := h (join u o (y.fill o.neutral)) ⟨fills, rfl, fills_fill y _⟩ p
  have passes (r' : Running) :
      ((y.fill o.neutral).feed o r').map Running.total = some r'.total := by
    rw [total_feed_fill, r'.total_step_neutral]
  have kept (a : ℚ) : o.apply a o.neutral = some a := by
    cases o <;> simp [Calc.apply, Calc.neutral]
  rw [feed, value, Option.map_bind, value_fill] at whole
  simp only [Option.bind_some, kept, Option.bind_fun_some] at whole
  rw [← whole, Option.map_eq_bind]
  exact (congrArg _ (funext passes)).symm

theorem Agrees.sum (h : Agrees k (join x o y)) (sum : 1 < Ranked.rank o) (a b p : ℤ) :
    (((before k p).step k a).map Running.total).bind (fun v => o.apply v b) =
      ((o.apply a b).bind ((before k p).step k)).map Running.total := by
  have whole := h (join (x.fill a) o (y.fill b)) ⟨fills_fill x a, rfl, fills_fill y b⟩ p
  have behind (r' : Running) :
      ((y.fill b).feed o r').map Running.total = o.apply r'.total b := by
    rw [total_feed_fill, total_step_of_sum sum]
  rw [feed, value, Option.map_bind, value_fill, value_fill] at whole
  rw [← total_feed_fill x, Option.bind_map]
  exact (congrArg _ (funext behind)).symm.trans whole

theorem Agrees.behind_sum (h : Agrees .add (join x o y)) (sum : 1 < Ranked.rank o) :
    Agrees o y := by
  intro u fills p
  have whole := h (join (x.fill 0) o u) ⟨fills_fill x 0, rfl, fills⟩ p
  have front : (x.fill 0).feed .add .start = some .start := feed_fill_neutral x .add 0
  have nothing : before o p = .start := by
    rcases Calc.eq_of_sum sum with rfl | rfl <;> rfl
  rw [nothing]
  rw [feed, value, before, front, value_fill, Option.bind_some, Option.bind_some,
    Option.map_bind] at whole
  rw [whole, Option.bind_assoc, Option.map_bind]
  refine congrArg _ (funext fun b => ?_)
  rcases Calc.eq_of_sum sum with rfl | rfl <;>
    simp [Calc.apply, Running.step, Running.start, Running.total]

theorem Agrees.tight (h : Agrees .add (join x o y)) (product : Ranked.rank o ≤ 1) :
    x.rank ≤ 1 := by
  by_contra loose
  cases x with
  | leaf a => exact loose (Nat.zero_le _)
  | join x₁ i x₂ =>
    have sum : 1 < Ranked.rank i := Nat.lt_of_not_le loose
    have whole := h (join (join (x₁.fill 1) i (x₂.fill i.neutral)) o (y.fill 2))
      ⟨⟨fills_fill x₁ 1, rfl, fills_fill x₂ _⟩, rfl, fills_fill y 2⟩ 0
    have first : ((x₁.fill 1).feed .add .start).map Running.total = some 1 := by
      rw [total_feed_fill]
      simp [Running.step, Running.start, Running.total]
    obtain ⟨r₁, reached, total⟩ := Option.map_eq_some_iff.1 first
    -- The sum is complete in front of the product, which so has nothing to multiply.
    have second : (x₂.fill i.neutral).feed i r₁ = some ⟨1, 0⟩ := by
      rw [feed_congr sum (total.trans (by simp [Running.total]) : r₁.total = Running.total ⟨1, 0⟩),
        feed_fill_neutral]
    have one : i.apply 1 i.neutral = some 1 := by
      cases i <;> simp [Calc.apply, Calc.neutral]
    have last : ((y.fill 2).feed o ⟨1, 0⟩).map Running.total = some 1 := by
      rw [total_feed_fill]
      rcases Calc.eq_of_product product with rfl | rfl <;> simp [Running.step, Running.total]
    have alone (v : ℚ) : (Running.start.step .add v).map Running.total = some v := by
      simp [Running.step, Running.start, Running.total]
    have changed : o.apply 1 2 ≠ some 1 := by
      rcases Calc.eq_of_product product with rfl | rfl <;> norm_num [Calc.apply]
    rw [feed, feed, before, reached, Option.bind_some, second, Option.bind_some, last, value, value,
      value_fill, value_fill, value_fill, Option.bind_some, Option.bind_some, Int.cast_one, one,
      Option.bind_some, Option.bind_some, Option.map_bind] at whole
    refine changed (Eq.trans ?_ whole.symm)
    exact (Option.bind_fun_some _).symm.trans (congrArg _ (funext fun v => (alone v).symm))

theorem Agrees.addition (h : Agrees k (join x o y)) (sum : 1 < Ranked.rank o) : k = .add := by
  cases k with
  | add => rfl
  | sub =>
    have out := h.sum sum 0 1 0
    rcases Calc.eq_of_sum sum with rfl | rfl <;>
      norm_num [before, Running.step, Running.start, Running.total, Calc.apply] at out
  | mul =>
    have out := h.sum sum 1 1 2
    rcases Calc.eq_of_sum sum with rfl | rfl <;>
      norm_num [before, Running.step, Running.start, Running.total, Calc.apply] at out
  | div =>
    rcases Calc.eq_of_sum sum with rfl | rfl
    · have out := h.sum sum 1 1 1
      norm_num [before, Running.step, Running.total, Calc.apply] at out
    · have out := h.sum sum 1 (-1) 1
      norm_num [before, Running.step, Running.total, Calc.apply] at out

theorem Agrees.not_div (h : Agrees .div (join x o y)) (hx : x.Bare) (tight : x.rank ≤ 0)
    (product : Ranked.rank o ≤ 1) : False := by
  have whole := h (join (x.fill 1) o (y.fill 2)) ⟨fills_fill x 1, rfl, fills_fill y 2⟩ 1
  have front : (x.fill 1).feed .div ⟨0, 1⟩ = some ⟨0, 1⟩ := by
    rw [(hx.fill 1).feed_eq (by rw [rank_fill]; exact Nat.le_succ_of_le tight)
      (by rw [rank_fill]; exact tight), value_fill]
    simp [Running.step]
  rw [feed, value, before, Int.cast_one, front, Option.bind_some, total_feed_fill, value_fill,
    value_fill] at whole
  rcases Calc.eq_of_product product with rfl | rfl <;>
    norm_num [Running.step, Running.total, Calc.apply] at whole

theorem Agrees.behind_product (h : Agrees k (join x o y)) (hx : x.Bare) (tight : x.rank ≤ 1)
    (fits : x.rank ≤ k.limit) (product : Ranked.rank o ≤ 1) (least : 1 ≤ k.limit) :
    Agrees o y := by
  intro u fills p
  obtain ⟨q, v, front⟩ : ∃ q v : ℤ, (before k q).step k v = some ⟨0, p⟩ := by
    cases k with
    | add => exact ⟨0, p, by simp [before, Running.step, Running.start, Running.total]⟩
    | sub => exact ⟨0, -p, by simp [before, Running.step, Running.start, Running.total]⟩
    | mul => exact ⟨1, p, by simp [before, Running.step]⟩
    | div => exact absurd least (by decide)
  have factor : before o p = ⟨0, p⟩ := by
    rcases Calc.eq_of_product product with rfl | rfl <;> rfl
  have whole := h (join (x.fill v) o u) ⟨fills_fill x v, rfl, fills⟩ q
  rw [feed, value, (hx.fill v).feed_eq (by rwa [rank_fill]) (by rwa [rank_fill]), value_fill,
    Option.bind_some, Option.bind_some, front, Option.bind_some, Option.bind_assoc] at whole
  rw [factor, whole]
  refine congrArg (Option.map _) (congrArg _ (funext fun b => ?_))
  rw [← Running.step_apply product least, front, Option.bind_some]

/-- An expression that agrees whatever its operands are needs no parentheses. -/
theorem Agrees.bare {shape : Tree α Calc} (h : Agrees k shape) :
    shape.Bare ∧ shape.rank ≤ k.limit := by
  induction shape generalizing k with
  | leaf a => exact ⟨trivial, Nat.zero_le _⟩
  | join x o y ihx ihy =>
    obtain ⟨hx, fits⟩ := ihx h.front
    by_cases sum : 1 < Ranked.rank o
    · obtain rfl : k = .add := h.addition sum
      obtain ⟨hy, within⟩ := ihy (h.behind_sum sum)
      have loosest : Calc.add.limit ≤ Ranked.rank o := sum
      exact ⟨⟨hx, hy, Nat.le_trans fits loosest, within⟩, rank_le_limit_add (join x o y)⟩
    · have product : Ranked.rank o ≤ 1 := Nat.le_of_not_lt sum
      have tight : x.rank ≤ 1 := by
        cases k with
        | add => exact h.tight product
        | sub | mul => exact fits
        | div => exact Nat.le_succ_of_le fits
      have least : 1 ≤ k.limit := by
        cases k with
        | add | sub | mul => decide
        | div => exact (h.not_div hx fits product).elim
      obtain ⟨hy, within⟩ := ihy (h.behind_product hx tight fits product least)
      exact ⟨⟨hx, hy, Nat.le_trans tight (Ranked.rank_pos o), within⟩,
        Nat.le_trans product least⟩

end Agrees

end Tree

end ScopedQuery.Operator
