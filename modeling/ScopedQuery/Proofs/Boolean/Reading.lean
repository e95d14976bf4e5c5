import ScopedQuery.Proofs.Boolean.Token

set_option autoImplicit false

/-!
How a condition is read: NOT binds closest, AND closer than OR, and parentheses before all of them.
The tokens of a criterion are read as a choice between alternatives, each of them a conjunction; the
alternatives of an operand without parentheses run into those of its neighbours.
-/

namespace ScopedQuery.Sql

/-! ### Reading tokens -/

structure Level where
  /-- Whether an alternative in front of the current one holds. -/
  any : Bool
  /-- Whether everything in the current alternative holds so far. -/
  all : Bool
  negated : Bool

namespace Level

def fresh : Level := ⟨false, true, false⟩

def take (l : Level) (value : Bool) : Level := ⟨l.any, l.all && value != l.negated, false⟩

def alternate (l : Level) : Level := ⟨l.any || l.all, true, false⟩

def holds (l : Level) : Bool := l.any || l.all

end Level

structure Evaluation where
  level : Level
  /-- The levels outside of the parentheses that are open, the innermost first. -/
  outer : List Level
  needsOperand : Bool

variable (ρ : Criterion → Bool)

def Evaluation.step : Evaluation → Token → Option Evaluation
  | ⟨l, outer, true⟩, .leaf c => some ⟨l.take (ρ c), outer, false⟩
  | ⟨l, outer, true⟩, .not => some ⟨{ l with negated := !l.negated }, outer, true⟩
  | ⟨l, outer, true⟩, .opening => some ⟨.fresh, l :: outer, true⟩
  | ⟨l, m :: outer, false⟩, .closing => some ⟨m.take l.holds, outer, false⟩
  | ⟨l, outer, false⟩, .connective .conjunction => some ⟨l, outer, true⟩
  | ⟨l, outer, false⟩, .connective .disjunction => some ⟨l.alternate, outer, true⟩
  | _, _ => none

def Evaluation.run (e : Evaluation) (ts : List Token) : Option Evaluation := ts.foldlM (step ρ) e

/-- The truth of a condition whose leaves have the given truth; nothing if it is no condition. -/
def evaluate (ts : List Token) : Option Bool :=
  (Evaluation.run ρ ⟨.fresh, [], true⟩ ts).bind fun e =>
    if e.outer.isEmpty && !e.needsOperand then some e.level.holds else none

@[simp] theorem Evaluation.run_nil (e : Evaluation) : run ρ e [] = some e := rfl

@[simp] theorem Evaluation.run_cons (e : Evaluation) (t : Token) (ts : List Token) :
    run ρ e (t :: ts) = (step ρ e t).bind fun e => run ρ e ts := rfl

theorem Evaluation.run_append (e : Evaluation) (a b : List Token) :
    run ρ e (a ++ b) = (run ρ e a).bind fun e => run ρ e b := by
  unfold run
  rw [List.foldlM_append]
  rfl

/-! ### Meaning and alternatives -/

mutual

def Criterion.means : Criterion → Bool
  | .conj items => Criterion.meansAll items
  | .disj items => Criterion.meansAny items
  | .neg inner => !inner.means
  | c => ρ c

def Criterion.meansAll : List Criterion → Bool
  | [] => true
  | c :: cs => c.means && Criterion.meansAll cs

def Criterion.meansAny : List Criterion → Bool
  | [] => false
  | c :: cs => c.means || Criterion.meansAny cs

end

/-- The alternatives of two texts with AND in between: the last of the first one and the first of
the second one become one. -/
def meet : List Bool → List Bool → List Bool
  | [], bs => bs
  | [a], b :: bs => (a && b) :: bs
  | a :: as, bs => a :: meet as bs

def operandAlternatives (outer : Connective) (c : Criterion) (as : List Bool) : List Bool :=
  if c.isEnclosed outer then [as.any id] else as

mutual

def Criterion.alternatives : Criterion → List Bool
  | .conj items => Criterion.factors items
  | .disj items => Criterion.choices items
  | .neg inner => [!inner.alternatives.any id]
  | c => [ρ c]

def Criterion.factors : List Criterion → List Bool
  | [] => []
  | [c] => operandAlternatives .conjunction c c.alternatives
  | c :: d :: cs => meet (operandAlternatives .conjunction c c.alternatives)
      (Criterion.factors (d :: cs))

def Criterion.choices : List Criterion → List Bool
  | [] => []
  | c :: cs => operandAlternatives .disjunction c c.alternatives ++ Criterion.choices cs

end

mutual

def Criterion.Filled : Criterion → Prop
  | .conj items | .disj items => items ≠ [] ∧ Criterion.FilledAll items
  | .neg inner => inner.Filled
  | _ => True

def Criterion.FilledAll : List Criterion → Prop
  | [] => True
  | c :: cs => c.Filled ∧ Criterion.FilledAll cs

end

theorem Criterion.filledAll_iff (cs : List Criterion) :
    Criterion.FilledAll cs ↔ ∀ c ∈ cs, c.Filled := by
  induction cs with
  | nil => simp [Criterion.FilledAll]
  | cons c cs ih => simp [Criterion.FilledAll, ih]

theorem meet_ne_nil (as : List Bool) {bs : List Bool} (h : bs ≠ []) : meet as bs ≠ [] := by
  unfold meet
  split
  · exact h
  · exact List.cons_ne_nil _ _
  · exact List.cons_ne_nil _ _

theorem operandAlternatives_ne_nil (outer : Connective) (c : Criterion) {as : List Bool}
    (h : as ≠ []) : operandAlternatives outer c as ≠ [] := by
  unfold operandAlternatives
  split
  · exact List.cons_ne_nil _ _
  · exact h

mutual

theorem alternatives_ne_nil : ∀ c : Criterion, c.Filled → c.alternatives ρ ≠ []
  | .conj items, filled => by
    rw [Criterion.alternatives]
    exact factors_ne_nil items filled.1 filled.2
  | .disj items, filled => by
    rw [Criterion.alternatives]
    exact choices_ne_nil items filled.1 filled.2
  | .neg inner, _ => by
    rw [Criterion.alternatives]
    exact List.cons_ne_nil _ _
  | .compare _ _ _, _ | .member _ _ _, _ | .isNull _ _, _ | .like _ _ _, _ | .regex _ _, _
  | .between _ _ _, _ | .raw _, _ => List.cons_ne_nil _ _

theorem factors_ne_nil : ∀ cs : List Criterion, cs ≠ [] → Criterion.FilledAll cs →
    Criterion.factors ρ cs ≠ []
  | [], ne, _ => absurd rfl ne
  | [c], _, filled => by
    rw [Criterion.factors]
    exact operandAlternatives_ne_nil _ c (alternatives_ne_nil c filled.1)
  | c :: d :: cs, _, filled => by
    rw [Criterion.factors]
    exact meet_ne_nil _ (factors_ne_nil (d :: cs) (List.cons_ne_nil _ _) filled.2)

theorem choices_ne_nil : ∀ cs : List Criterion, cs ≠ [] → Criterion.FilledAll cs →
    Criterion.choices ρ cs ≠ []
  | [], ne, _ => absurd rfl ne
  | c :: cs, _, filled => by
    rw [Criterion.choices]
    exact List.append_ne_nil_of_left_ne_nil
      (operandAlternatives_ne_nil _ c (alternatives_ne_nil c filled.1)) _

end

/-! ### Levels behind alternatives -/

def Level.behind : Level → List Bool → Level
  | l, [] => l
  | l, [a] => l.take a
  | l, a :: b :: as => (l.take a).alternate.behind (b :: as)

namespace Level

theorem take_take {l : Level} (a b : Bool) (plain : l.negated = false) :
    (l.take a).take b = l.take (a && b) := by
  simp [take, plain, Bool.and_assoc]

theorem behind_meet {l : Level} {as bs : List Bool} (plain : l.negated = false) (ha : as ≠ [])
    (hb : bs ≠ []) : (l.behind as).behind bs = l.behind (meet as bs) := by
  induction as generalizing l with
  | nil => exact absurd rfl ha
  | cons a as ih =>
    cases as with
    | nil =>
      obtain ⟨b, bs, rfl⟩ := List.exists_cons_of_ne_nil hb
      cases bs with
      | nil => exact take_take a b plain
      | cons e bs =>
        change ((l.take a).take b).alternate.behind (e :: bs) =
          (l.take (a && b)).alternate.behind (e :: bs)
        rw [take_take a b plain]
    | cons e as =>
      obtain ⟨x, xs, eq⟩ := List.exists_cons_of_ne_nil (meet_ne_nil (e :: as) hb)
      have rest := ih (l := (l.take a).alternate) rfl (List.cons_ne_nil _ _)
      rw [meet, eq, behind, behind, rest, eq]
      simp

theorem behind_append {l : Level} {as bs : List Bool} (ha : as ≠ []) (hb : bs ≠ []) :
    (l.behind as).alternate.behind bs = l.behind (as ++ bs) := by
  induction as generalizing l with
  | nil => exact absurd rfl ha
  | cons a as ih =>
    cases as with
    | nil =>
      obtain ⟨b, bs, rfl⟩ := List.exists_cons_of_ne_nil hb
      rfl
    | cons e as => exact ih (l := (l.take a).alternate) (List.cons_ne_nil _ _)

theorem negated_behind {l : Level} {as : List Bool} (ha : as ≠ []) :
    (l.behind as).negated = false := by
  induction as generalizing l with
  | nil => exact absurd rfl ha
  | cons a as ih =>
    cases as with
    | nil => rfl
    | cons e as => exact ih (l := (l.take a).alternate) (List.cons_ne_nil _ _)

theorem holds_behind {l : Level} {as : List Bool} (plain : l.negated = false) (ha : as ≠ []) :
    (l.behind as).holds = (l.any || (l.all && as.head ha) || as.tail.any id) := by
  induction as generalizing l with
  | nil => exact absurd rfl ha
  | cons a as ih =>
    cases as with
    | nil => simp [behind, take, holds, plain]
    | cons e as =>
      rw [behind, ih (l := (l.take a).alternate) rfl (List.cons_ne_nil _ _)]
      simp [alternate, take, plain, Bool.or_assoc]

theorem holds_fresh_behind {as : List Bool} (ha : as ≠ []) :
    (fresh.behind as).holds = as.any id := by
  obtain ⟨a, as, rfl⟩ := List.exists_cons_of_ne_nil ha
  rw [holds_behind rfl ha]
  simp [fresh]

end Level

/-! ### Tokens are read as their alternatives -/

/-- Whether tokens are read as some alternatives wherever an operand can stand. -/
def ReadAs (ts : List Token) (as : List Bool) : Prop :=
  ∀ l outer, l.negated = false →
    Evaluation.run ρ ⟨l, outer, true⟩ ts = some ⟨l.behind as, outer, false⟩

variable {ρ}

theorem run_enclosed {ts : List Token} {as : List Bool} (h : ReadAs ρ ts as) (ne : as ≠ [])
    (l : Level) (outer : List Level) :
    Evaluation.run ρ ⟨l, outer, true⟩ (enclosed ts) =
      some ⟨l.take (as.any id), outer, false⟩ := by
  have inside := h .fresh (l :: outer) rfl
  have close : Evaluation.step ρ ⟨Level.fresh.behind as, l :: outer, false⟩ .closing =
      some ⟨l.take (as.any id), outer, false⟩ := by
    rw [Evaluation.step, Level.holds_fresh_behind ne]
  rw [enclosed, Evaluation.run_cons, Evaluation.step, Option.bind_some, Evaluation.run_append,
    inside, Option.bind_some, Evaluation.run_cons, close, Option.bind_some, Evaluation.run_nil]

theorem readAs_operand {outer : Connective} {c : Criterion} {ts : List Token} {as : List Bool}
    (h : ReadAs ρ ts as) (ne : as ≠ []) :
    ReadAs ρ (operandTokens outer c ts) (operandAlternatives outer c as) := by
  unfold operandTokens operandAlternatives
  split
  · exact fun l levels _ => run_enclosed h ne l levels
  · exact h

theorem readAs_conjunction {a b : List Token} {as bs : List Bool} (ha : ReadAs ρ a as)
    (hb : ReadAs ρ b bs) (neA : as ≠ []) (neB : bs ≠ []) :
    ReadAs ρ (a ++ .connective .conjunction :: b) (meet as bs) := by
  intro l outer plain
  have first := ha l outer plain
  have second := hb (l.behind as) outer (Level.negated_behind neA)
  rw [Evaluation.run_append, first, Option.bind_some, Evaluation.run_cons, Evaluation.step,
    Option.bind_some, second, Level.behind_meet plain neA neB]

theorem readAs_disjunction {a b : List Token} {as bs : List Bool} (ha : ReadAs ρ a as)
    (hb : ReadAs ρ b bs) (neA : as ≠ []) (neB : bs ≠ []) :
    ReadAs ρ (a ++ .connective .disjunction :: b) (as ++ bs) := by
  intro l outer plain
  have first := ha l outer plain
  have second := hb (l.behind as).alternate outer rfl
  rw [Evaluation.run_append, first, Option.bind_some, Evaluation.run_cons, Evaluation.step,
    Option.bind_some, second, Level.behind_append neA neB]

variable (ρ)

mutual

theorem readAs_tokens : ∀ c : Criterion, c.Filled → ReadAs ρ c.tokens (c.alternatives ρ)
  | .conj items, filled => by
    rw [Criterion.tokens, Criterion.alternatives]
    exact readAs_factors items filled.1 filled.2
  | .disj items, filled => by
    rw [Criterion.tokens, Criterion.alternatives]
    exact readAs_choices items filled.1 filled.2
  | .neg inner, filled => by
    intro l outer plain
    -- NOT is pending while its parentheses are read, and used up by what they come to.
    have rest := run_enclosed (readAs_tokens inner filled) (alternatives_ne_nil ρ inner filled)
      { l with negated := !l.negated } outer
    rw [Criterion.tokens, Criterion.alternatives, Evaluation.run_cons, Evaluation.step,
      Option.bind_some, rest]
    simp [Level.take, Level.behind, plain]
  | .compare _ _ _, _ | .member _ _ _, _ | .isNull _ _, _ | .like _ _ _, _ | .regex _ _, _
  | .between _ _ _, _ | .raw _, _ => by
    intro l outer _
    rfl

theorem readAs_factors : ∀ cs : List Criterion, cs ≠ [] → Criterion.FilledAll cs →
    ReadAs ρ (Criterion.joined .conjunction cs) (Criterion.factors ρ cs)
  | [], ne, _ => absurd rfl ne
  | [c], _, filled => by
    rw [Criterion.joined, Criterion.factors]
    exact readAs_operand (readAs_tokens c filled.1) (alternatives_ne_nil ρ c filled.1)
  | c :: d :: cs, _, filled => by
    have ne := alternatives_ne_nil ρ c filled.1
    rw [Criterion.joined, Criterion.factors]
    exact readAs_conjunction (readAs_operand (readAs_tokens c filled.1) ne)
      (readAs_factors (d :: cs) (List.cons_ne_nil _ _) filled.2) (operandAlternatives_ne_nil _ c ne)
      (factors_ne_nil ρ (d :: cs) (List.cons_ne_nil _ _) filled.2)

theorem readAs_choices : ∀ cs : List Criterion, cs ≠ [] → Criterion.FilledAll cs →
    ReadAs ρ (Criterion.joined .disjunction cs) (Criterion.choices ρ cs)
  | [], ne, _ => absurd rfl ne
  | [c], _, filled => by
    rw [Criterion.joined, Criterion.choices, Criterion.choices, List.append_nil]
    exact readAs_operand (readAs_tokens c filled.1) (alternatives_ne_nil ρ c filled.1)
  | c :: d :: cs, _, filled => by
    have ne := alternatives_ne_nil ρ c filled.1
    rw [Criterion.joined, Criterion.choices]
    exact readAs_disjunction (readAs_operand (readAs_tokens c filled.1) ne)
      (readAs_choices (d :: cs) (List.cons_ne_nil _ _) filled.2) (operandAlternatives_ne_nil _ c ne)
      (choices_ne_nil ρ (d :: cs) (List.cons_ne_nil _ _) filled.2)

end

/-- A condition holds as it is read if one of its alternatives does. -/
theorem evaluate_tokens {c : Criterion} (filled : c.Filled) :
    evaluate ρ c.tokens = some ((c.alternatives ρ).any id) := by
  have run := readAs_tokens ρ c filled .fresh [] rfl
  rw [evaluate, run, Option.bind_some, Level.holds_fresh_behind (alternatives_ne_nil ρ c filled)]
  rfl

end ScopedQuery.Sql
