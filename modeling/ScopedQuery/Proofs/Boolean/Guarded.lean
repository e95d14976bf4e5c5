import ScopedQuery.Proofs.Boolean.Reading

set_option autoImplicit false

/-!
When a condition is read as it is meant. An OR that no parentheses hide from an AND splits the
conjunction it stands in; where there is none, the alternatives of every conjunction are one.
-/

namespace ScopedQuery.Sql

namespace Criterion

mutual

/-- Whether an OR stands outside of all parentheses in the text of a criterion. -/
def showsOr : Criterion → Bool
  | conj items => showsOrAmong .conjunction items
  | disj items => items.length > 1 || showsOrAmong .disjunction items
  | _ => false

def showsOrAmong (outer : Connective) : List Criterion → Bool
  | [] => false
  | c :: cs => !c.isEnclosed outer && c.showsOr || showsOrAmong outer cs

end

mutual

/-- Whether no member of a conjunction of several shows an OR, anywhere in a criterion. -/
def Guarded : Criterion → Prop
  | conj items => (1 < items.length → showsOrAmong .conjunction items = false) ∧ GuardedAll items
  | disj items => GuardedAll items
  | neg inner => inner.Guarded
  | _ => True

def GuardedAll : List Criterion → Prop
  | [] => True
  | c :: cs => c.Guarded ∧ GuardedAll cs

end

variable (ρ : Criterion → Bool)

theorem meansAll_eq (cs : List Criterion) : meansAll ρ cs = cs.all (means ρ) := by
  induction cs with
  | nil => rfl
  | cons c cs ih => rw [meansAll, ih, List.all_cons]

theorem meansAny_eq (cs : List Criterion) : meansAny ρ cs = cs.any (means ρ) := by
  induction cs with
  | nil => rfl
  | cons c cs ih => rw [meansAny, ih, List.any_cons]

def isRead (c : Criterion) : Bool := (c.alternatives ρ).any id

theorem any_operandAlternatives (outer : Connective) (c : Criterion) :
    (operandAlternatives outer c (c.alternatives ρ)).any id = isRead ρ c := by
  unfold operandAlternatives
  split
  · simp [isRead]
  · rfl

theorem any_choices (cs : List Criterion) : (choices ρ cs).any id = cs.any (isRead ρ) := by
  induction cs with
  | nil => rfl
  | cons c cs ih => rw [choices, List.any_append, any_operandAlternatives, ih, List.any_cons]

theorem single_operand {outer : Connective} {c : Criterion}
    (hidden : (!c.isEnclosed outer && c.showsOr) = false)
    (single : c.showsOr = false → c.alternatives ρ = [isRead ρ c]) :
    operandAlternatives outer c (c.alternatives ρ) = [isRead ρ c] := by
  unfold operandAlternatives
  split
  · rfl
  · next enclosed =>
    rw [Bool.not_eq_true] at enclosed
    rw [enclosed] at hidden
    exact single hidden

mutual

theorem single_alternative : ∀ c : Criterion, c.Filled → c.showsOr = false →
    c.alternatives ρ = [isRead ρ c]
  | .conj items, filled, hidden => by
    have one := single_factor items filled.1 filled.2 hidden
    rw [isRead, alternatives, one]
    simp
  | .disj items, filled, hidden => by
    rw [showsOr, Bool.or_eq_false_iff] at hidden
    match items, filled, hidden with
    | [c], filled, hidden =>
      rw [showsOrAmong, Bool.or_eq_false_iff] at hidden
      have one := single_operand ρ hidden.2.1 (single_alternative c filled.2.1)
      rw [isRead, alternatives, choices, choices, List.append_nil, one]
      simp
    | c :: d :: cs, _, hidden => simp at hidden
    | [], filled, _ => exact absurd rfl filled.1
  | .neg inner, _, _ => by simp [isRead, alternatives]
  | .compare _ _ _, _, _ | .member _ _ _, _, _ | .isNull _ _, _, _ | .like _ _ _, _, _
  | .regex _ _, _, _ | .between _ _ _, _, _ | .raw _, _, _ => by simp [isRead, alternatives]

theorem single_factor : ∀ cs : List Criterion, cs ≠ [] → FilledAll cs →
    showsOrAmong .conjunction cs = false → factors ρ cs = [cs.all (isRead ρ)]
  | [], ne, _, _ => absurd rfl ne
  | [c], _, filled, hidden => by
    rw [showsOrAmong, Bool.or_eq_false_iff] at hidden
    rw [factors, single_operand ρ hidden.1 (single_alternative c filled.1)]
    simp
  | c :: d :: cs, _, filled, hidden => by
    rw [showsOrAmong, Bool.or_eq_false_iff] at hidden
    rw [factors, single_operand ρ hidden.1 (single_alternative c filled.1),
      single_factor (d :: cs) (List.cons_ne_nil _ _) filled.2 hidden.2, meet, ← List.all_cons]

end

theorem isRead_conj_singleton (c : Criterion) : isRead ρ (conj [c]) = isRead ρ c :=
  any_operandAlternatives ρ .conjunction c

theorem isRead_conj {items : List Criterion} (ne : items ≠ []) (filled : FilledAll items)
    (hidden : 1 < items.length → showsOrAmong .conjunction items = false) :
    isRead ρ (conj items) = items.all (isRead ρ) := by
  match items, ne, filled, hidden with
  | [], ne, _, _ => exact absurd rfl ne
  | [c], _, _, _ => simp [isRead_conj_singleton]
  | c :: d :: cs, ne, filled, hidden =>
    rw [isRead, alternatives, single_factor ρ _ ne filled (hidden (by simp))]
    simp

theorem isRead_disj (items : List Criterion) : isRead ρ (disj items) = items.any (isRead ρ) := by
  rw [isRead, alternatives, any_choices]

theorem isRead_neg (c : Criterion) : isRead ρ (neg c) = !isRead ρ c := by
  simp [isRead, alternatives]

mutual

theorem isRead_eq_means : ∀ c : Criterion, c.Filled → c.Guarded → isRead ρ c = c.means ρ
  | .conj items, filled, guarded => by
    have each := congrArg (List.all · id) (map_isRead items filled.2 guarded.2)
    rw [isRead_conj ρ filled.1 filled.2 guarded.1, means, meansAll_eq]
    simpa only [List.all_map, Function.id_comp] using each
  | .disj items, filled, guarded => by
    have each := congrArg (List.any · id) (map_isRead items filled.2 guarded)
    rw [isRead_disj, means, meansAny_eq]
    simpa only [List.any_map, Function.id_comp] using each
  | .neg inner, filled, guarded => by
    rw [isRead_neg, means, isRead_eq_means inner filled guarded]
  | .compare _ _ _, _, _ | .member _ _ _, _, _ | .isNull _ _, _, _ | .like _ _ _, _, _
  | .regex _ _, _, _ | .between _ _ _, _, _ | .raw _, _, _ => by
    simp [isRead, alternatives, means]

theorem map_isRead : ∀ cs : List Criterion, FilledAll cs → GuardedAll cs →
    cs.map (isRead ρ) = cs.map (means ρ)
  | [], _, _ => rfl
  | c :: cs, filled, guarded => by
    rw [List.map_cons, List.map_cons, isRead_eq_means c filled.1 guarded.1,
      map_isRead cs filled.2 guarded.2]

end

end Criterion

end ScopedQuery.Sql
