import ScopedQuery.Proofs.Boolean.Guarded
import ScopedQuery.Sql.Statement

set_option autoImplicit false

/-!
When a condition is not read as it is meant: as soon as its leaves are independent of each other and
a conjunction of several members shows an OR, some truth of the leaves tells the two apart.
-/

namespace ScopedQuery.Sql

namespace Criterion

mutual

def leaves : Criterion → List Criterion
  | conj items | disj items => leavesAll items
  | neg inner => inner.leaves
  | c => [c]

def leavesAll : List Criterion → List Criterion
  | [] => []
  | c :: cs => c.leaves ++ leavesAll cs

end

theorem leavesAll_append (a b : List Criterion) :
    leavesAll (a ++ b) = leavesAll a ++ leavesAll b := by
  induction a with
  | nil => rfl
  | cons c a ih => rw [List.cons_append, leavesAll, leavesAll, ih, List.append_assoc]

def Agree (ls : List Criterion) (ρ σ : Criterion → Bool) : Prop := ∀ x ∈ ls, ρ x = σ x

theorem Agree.left {a b : List Criterion} {ρ σ : Criterion → Bool} (h : Agree (a ++ b) ρ σ) :
    Agree a ρ σ := fun x hx => h x (List.mem_append_left _ hx)

theorem Agree.right {a b : List Criterion} {ρ σ : Criterion → Bool} (h : Agree (a ++ b) ρ σ) :
    Agree b ρ σ := fun x hx => h x (List.mem_append_right _ hx)

/-- Leaves without a common one can be given their truths separately. -/
theorem exists_agree {a b : List Criterion} (apart : (a ++ b).Nodup) (ρ σ : Criterion → Bool) :
    ∃ τ, Agree a τ ρ ∧ Agree b τ σ := by
  classical
  refine ⟨fun x => if x ∈ a then ρ x else σ x, fun x hx => if_pos hx, fun x hx => if_neg ?_⟩
  exact fun ha => (List.nodup_append.1 apart).2.2 x ha x hx rfl

/-! ### Only the leaves count -/

mutual

theorem alternatives_congr {ρ σ : Criterion → Bool} : ∀ c : Criterion, Agree c.leaves ρ σ →
    c.alternatives ρ = c.alternatives σ
  | .conj items, h => by
    rw [alternatives, alternatives, factors_congr items h]
  | .disj items, h => by
    rw [alternatives, alternatives, choices_congr items h]
  | .neg inner, h => by
    rw [alternatives, alternatives, alternatives_congr inner h]
  | .compare _ _ _, h | .member _ _ _, h | .isNull _ _, h | .like _ _ _, h | .regex _ _, h
  | .between _ _ _, h | .raw _, h => congrArg (fun b => [b]) (h _ List.mem_cons_self)

theorem factors_congr {ρ σ : Criterion → Bool} : ∀ cs : List Criterion,
    Agree (leavesAll cs) ρ σ → factors ρ cs = factors σ cs
  | [], _ => rfl
  | [c], h => by
    rw [factors, factors, alternatives_congr c h.left]
  | c :: d :: cs, h => by
    rw [factors, factors, alternatives_congr c h.left, factors_congr (d :: cs) h.right]

theorem choices_congr {ρ σ : Criterion → Bool} : ∀ cs : List Criterion,
    Agree (leavesAll cs) ρ σ → choices ρ cs = choices σ cs
  | [], _ => rfl
  | c :: cs, h => by
    rw [choices, choices, alternatives_congr c h.left, choices_congr cs h.right]

end

mutual

theorem means_congr {ρ σ : Criterion → Bool} : ∀ c : Criterion, Agree c.leaves ρ σ →
    c.means ρ = c.means σ
  | .conj items, h => (meansAll_congr items h)
  | .disj items, h => (meansAny_congr items h)
  | .neg inner, h => congrArg not (means_congr inner h)
  | .compare _ _ _, h | .member _ _ _, h | .isNull _ _, h | .like _ _ _, h | .regex _ _, h
  | .between _ _ _, h | .raw _, h => h _ List.mem_cons_self

theorem meansAll_congr {ρ σ : Criterion → Bool} : ∀ cs : List Criterion,
    Agree (leavesAll cs) ρ σ → meansAll ρ cs = meansAll σ cs
  | [], _ => rfl
  | c :: cs, h => by
    rw [meansAll, meansAll, means_congr c h.left, meansAll_congr cs h.right]

theorem meansAny_congr {ρ σ : Criterion → Bool} : ∀ cs : List Criterion,
    Agree (leavesAll cs) ρ σ → meansAny ρ cs = meansAny σ cs
  | [], _ => rfl
  | c :: cs, h => by
    rw [meansAny, meansAny, means_congr c h.left, meansAny_congr cs h.right]

end

theorem isRead_congr {ρ σ : Criterion → Bool} {c : Criterion} (h : Agree c.leaves ρ σ) :
    isRead ρ c = isRead σ c := by
  rw [isRead, isRead, alternatives_congr c h]

/-! ### Truths under which everything holds, or nothing -/

/-- Whether a criterion and all alternatives it is read as have the same truth. -/
def Uniform (ρ : Criterion → Bool) (b : Bool) (c : Criterion) : Prop :=
  (∀ a ∈ c.alternatives ρ, a = b) ∧ c.means ρ = b

theorem Uniform.congr {ρ σ : Criterion → Bool} {b : Bool} {c : Criterion} (h : Uniform σ b c)
    (agree : Agree c.leaves ρ σ) : Uniform ρ b c := by
  rw [Uniform, alternatives_congr c agree, means_congr c agree]
  exact h

theorem any_of_forall {as : List Bool} {b : Bool} (ne : as ≠ []) (h : ∀ a ∈ as, a = b) :
    as.any id = b := by
  rw [Bool.eq_iff_iff, List.any_eq_true]
  constructor
  · rintro ⟨a, mem, holds⟩
    rw [← h a mem]
    exact holds
  · intro holds
    obtain ⟨a, as, rfl⟩ := List.exists_cons_of_ne_nil ne
    exact ⟨a, List.mem_cons_self, (h a List.mem_cons_self).trans holds⟩

theorem Uniform.isRead_eq {ρ : Criterion → Bool} {b : Bool} {c : Criterion} (h : Uniform ρ b c)
    (filled : c.Filled) : isRead ρ c = b :=
  any_of_forall (alternatives_ne_nil ρ c filled) h.1

theorem Uniform.operand {ρ : Criterion → Bool} {b : Bool} {c : Criterion} (h : Uniform ρ b c)
    (filled : c.Filled) (outer : Connective) :
    ∀ a ∈ operandAlternatives outer c (c.alternatives ρ), a = b := by
  intro a mem
  unfold operandAlternatives at mem
  split at mem
  · rw [List.mem_singleton.1 mem]
    exact h.isRead_eq filled
  · exact h.1 a mem

theorem forall_meet {as bs : List Bool} {b : Bool} (ha : ∀ a ∈ as, a = b) (hb : ∀ x ∈ bs, x = b) :
    ∀ x ∈ meet as bs, x = b := by
  induction as with
  | nil => exact hb
  | cons a as ih =>
    have first := ha a List.mem_cons_self
    have others := ih fun x hx => ha x (List.mem_cons_of_mem _ hx)
    cases as with
    | nil =>
      cases bs with
      | nil => simpa [meet] using first
      | cons e bs =>
        rw [meet]
        intro x hx
        rcases List.mem_cons.1 hx with rfl | hx
        · rw [first, hb e List.mem_cons_self, Bool.and_self]
        · exact hb x (List.mem_cons_of_mem _ hx)
    | cons e as =>
      rw [meet]
      · intro x hx
        rcases List.mem_cons.1 hx with rfl | hx
        · exact first
        · exact others x hx
      all_goals simp

theorem forall_factors {ρ : Criterion → Bool} {b : Bool} {cs : List Criterion}
    (filled : FilledAll cs) (h : ∀ c ∈ cs, Uniform ρ b c) : ∀ a ∈ factors ρ cs, a = b := by
  induction cs with
  | nil => simp [factors]
  | cons c cs ih =>
    have first := (h c List.mem_cons_self).operand filled.1 .conjunction
    cases cs with
    | nil => exact first
    | cons d cs =>
      rw [factors]
      exact forall_meet first (ih filled.2 fun x hx => h x (List.mem_cons_of_mem _ hx))

theorem forall_choices {ρ : Criterion → Bool} {b : Bool} {cs : List Criterion}
    (filled : FilledAll cs) (h : ∀ c ∈ cs, Uniform ρ b c) : ∀ a ∈ choices ρ cs, a = b := by
  induction cs with
  | nil => simp [choices]
  | cons c cs ih =>
    intro a mem
    rw [choices] at mem
    rcases List.mem_append.1 mem with mem | mem
    · exact (h c List.mem_cons_self).operand filled.1 .disjunction a mem
    · exact ih filled.2 (fun x hx => h x (List.mem_cons_of_mem _ hx)) a mem

theorem all_means {ρ : Criterion → Bool} {b : Bool} {cs : List Criterion} (ne : cs ≠ [])
    (h : ∀ c ∈ cs, Uniform ρ b c) : cs.all (means ρ) = b := by
  cases b with
  | true => exact List.all_eq_true.2 fun c hc => (h c hc).2
  | false =>
    obtain ⟨c, cs, rfl⟩ := List.exists_cons_of_ne_nil ne
    rw [List.all_cons, (h c List.mem_cons_self).2, Bool.false_and]

theorem any_means {ρ : Criterion → Bool} {b : Bool} {cs : List Criterion} (ne : cs ≠ [])
    (h : ∀ c ∈ cs, Uniform ρ b c) : cs.any (means ρ) = b := by
  cases b with
  | true =>
    obtain ⟨c, cs, rfl⟩ := List.exists_cons_of_ne_nil ne
    rw [List.any_cons, (h c List.mem_cons_self).2, Bool.true_or]
  | false =>
    refine List.any_eq_false.2 fun c hc => ?_
    rw [(h c hc).2]
    exact Bool.false_ne_true

theorem Agree.of_mem {cs : List Criterion} {ρ σ : Criterion → Bool}
    (h : Agree (leavesAll cs) ρ σ) {c : Criterion} (mem : c ∈ cs) : Agree c.leaves ρ σ := by
  obtain ⟨a, b, rfl⟩ := List.append_of_mem mem
  rw [leavesAll_append] at h
  exact h.right.left

mutual

/-- Independent leaves can be chosen so that everything holds, and so that nothing does. -/
theorem exists_uniform : ∀ c : Criterion, c.Filled → c.leaves.Nodup → ∀ b, ∃ ρ, Uniform ρ b c
  | .conj items, filled, apart, b => by
    obtain ⟨ρ, each⟩ := exists_uniformAll items filled.2 apart b
    refine ⟨ρ, forall_factors filled.2 each, ?_⟩
    rw [means, meansAll_eq]
    exact all_means filled.1 each
  | .disj items, filled, apart, b => by
    obtain ⟨ρ, each⟩ := exists_uniformAll items filled.2 apart b
    refine ⟨ρ, forall_choices filled.2 each, ?_⟩
    rw [means, meansAny_eq]
    exact any_means filled.1 each
  | .neg inner, filled, apart, b => by
    obtain ⟨ρ, uniform⟩ := exists_uniform inner filled apart (!b)
    refine ⟨ρ, fun a mem => ?_, ?_⟩
    · rw [alternatives] at mem
      rw [List.mem_singleton.1 mem, any_of_forall (alternatives_ne_nil ρ inner filled) uniform.1,
        Bool.not_not]
    · rw [means, uniform.2, Bool.not_not]
  | .compare _ _ _, _, _, b | .member _ _ _, _, _, b | .isNull _ _, _, _, b | .like _ _ _, _, _, b
  | .regex _ _, _, _, b | .between _ _ _, _, _, b | .raw _, _, _, b =>
    ⟨fun _ => b, fun _ mem => List.mem_singleton.1 mem, rfl⟩

theorem exists_uniformAll : ∀ cs : List Criterion, FilledAll cs → (leavesAll cs).Nodup → ∀ b,
    ∃ ρ, ∀ c ∈ cs, Uniform ρ b c
  | [], _, _, b => ⟨fun _ => b, by simp⟩
  | c :: cs, filled, apart, b => by
    obtain ⟨ρ, first⟩ := exists_uniform c filled.1 (List.nodup_append.1 apart).1 b
    obtain ⟨σ, rest⟩ := exists_uniformAll cs filled.2 (List.nodup_append.1 apart).2.1 b
    obtain ⟨τ, agreeFirst, agreeRest⟩ := exists_agree apart ρ σ
    refine ⟨τ, fun d mem => ?_⟩
    rcases List.mem_cons.1 mem with rfl | mem
    · exact first.congr agreeFirst
    · exact (rest d mem).congr (agreeRest.of_mem mem)

end

theorem filledAll_append {xs ys : List Criterion} :
    FilledAll (xs ++ ys) ↔ FilledAll xs ∧ FilledAll ys := by
  simp only [filledAll_iff, List.forall_mem_append]

theorem exists_uniform_pair {xs ys : List Criterion} (filled : FilledAll (xs ++ ys))
    (apart : (leavesAll (xs ++ ys)).Nodup) (b b' : Bool) :
    ∃ ρ, (∀ c ∈ xs, Uniform ρ b c) ∧ ∀ c ∈ ys, Uniform ρ b' c := by
  obtain ⟨filledX, filledY⟩ := filledAll_append.1 filled
  rw [leavesAll_append] at apart
  obtain ⟨ρ, hx⟩ := exists_uniformAll xs filledX (List.nodup_append.1 apart).1 b
  obtain ⟨σ, hy⟩ := exists_uniformAll ys filledY (List.nodup_append.1 apart).2.1 b'
  obtain ⟨τ, agreeX, agreeY⟩ := exists_agree apart ρ σ
  exact ⟨τ, fun c mem => (hx c mem).congr (agreeX.of_mem mem),
    fun c mem => (hy c mem).congr (agreeY.of_mem mem)⟩

/-- One member can be given any truth of its leaves while all others are uniform. -/
theorem exists_focus {xs ys : List Criterion} {c : Criterion} (filled : FilledAll (xs ++ c :: ys))
    (apart : (leavesAll (xs ++ c :: ys)).Nodup) (ρ : Criterion → Bool) (b : Bool) :
    ∃ τ, Agree c.leaves τ ρ ∧ ∀ d ∈ xs ++ ys, Uniform τ b d := by
  have others : FilledAll (xs ++ ys) := by
    rw [filledAll_append] at filled ⊢
    exact ⟨filled.1, filled.2.2⟩
  have order : (c.leaves ++ leavesAll (xs ++ ys)).Nodup := by
    rw [leavesAll_append, leavesAll] at apart
    rw [leavesAll_append]
    exact (List.perm_append_comm_assoc _ _ _).nodup apart
  obtain ⟨σ, each⟩ := exists_uniformAll (xs ++ ys) others (List.nodup_append.1 order).2.1 b
  obtain ⟨τ, agree, agreeOthers⟩ := exists_agree order ρ σ
  exact ⟨τ, agree, fun d mem => (each d mem).congr (agreeOthers.of_mem mem)⟩

/-! ### Where an OR shows there are several alternatives -/

theorem length_meet {as bs : List Bool} (ha : as ≠ []) (hb : bs ≠ []) :
    (meet as bs).length + 1 = as.length + bs.length := by
  induction as with
  | nil => exact absurd rfl ha
  | cons a as ih =>
    cases as with
    | nil =>
      obtain ⟨b, bs, rfl⟩ := List.exists_cons_of_ne_nil hb
      simp only [meet, List.length_cons, List.length_nil]
      omega
    | cons e as =>
      have rest := ih (List.cons_ne_nil _ _)
      rw [meet]
      · simp only [List.length_cons] at rest ⊢
        omega
      all_goals simp

theorem length_choices (ρ : Criterion → Bool) {cs : List Criterion} (filled : FilledAll cs) :
    cs.length ≤ (choices ρ cs).length := by
  induction cs with
  | nil => exact Nat.le_refl _
  | cons c cs ih =>
    have first := List.length_pos_iff.2
      (operandAlternatives_ne_nil .disjunction c (alternatives_ne_nil ρ c filled.1))
    have rest := ih filled.2
    rw [choices, List.length_append, List.length_cons]
    omega

theorem operand_eq {outer : Connective} {c : Criterion} (ρ : Criterion → Bool)
    (bare : c.isEnclosed outer = false) :
    operandAlternatives outer c (c.alternatives ρ) = c.alternatives ρ := by
  rw [operandAlternatives, bare]
  rfl

mutual

theorem several_alternatives (ρ : Criterion → Bool) : ∀ c : Criterion, c.Filled → c.showsOr →
    1 < (c.alternatives ρ).length
  | .conj items, filled, shows => by
    rw [alternatives]
    exact several_factors ρ items filled.2 shows
  | .disj items, filled, shows => by
    have long := length_choices ρ filled.2
    rw [alternatives]
    match items, filled, shows, long with
    | [], filled, _, _ => exact absurd rfl filled.1
    | [c], filled, shows, _ =>
      have bare : c.isEnclosed .disjunction = false ∧ c.showsOr := by
        simpa [showsOr, showsOrAmong] using shows
      rw [choices, choices, List.append_nil, operand_eq ρ bare.1]
      exact several_alternatives ρ c filled.2.1 bare.2
    | c :: d :: cs, _, _, long =>
      simp only [List.length_cons] at long
      omega
  | .neg _, _, shows => by cases shows
  | .compare _ _ _, _, shows | .member _ _ _, _, shows | .isNull _ _, _, shows
  | .like _ _ _, _, shows | .regex _ _, _, shows | .between _ _ _, _, shows
  | .raw _, _, shows => by cases shows

theorem several_factors (ρ : Criterion → Bool) : ∀ cs : List Criterion, FilledAll cs →
    showsOrAmong .conjunction cs → 1 < (factors ρ cs).length
  | [], _, shows => by cases shows
  | [c], filled, shows => by
    have bare : c.isEnclosed .conjunction = false ∧ c.showsOr := by
      simpa [showsOrAmong] using shows
    rw [factors, operand_eq ρ bare.1]
    exact several_alternatives ρ c filled.1 bare.2
  | c :: d :: cs, filled, shows => by
    have first := operandAlternatives_ne_nil .conjunction c (alternatives_ne_nil ρ c filled.1)
    have rest := factors_ne_nil ρ (d :: cs) (List.cons_ne_nil _ _) filled.2
    have total := length_meet first rest
    have lengthFirst := List.length_pos_iff.2 first
    have lengthRest := List.length_pos_iff.2 rest
    rw [factors]
    rw [showsOrAmong, Bool.or_eq_true] at shows
    rcases shows with shows | shows
    · rw [Bool.and_eq_true, Bool.not_eq_true'] at shows
      have long := several_alternatives ρ c filled.1 shows.2
      rw [← operand_eq ρ shows.1] at long
      omega
    · have long := several_factors ρ (d :: cs) filled.2 shows
      omega

end

/-! ### Where an OR shows the two can be told apart -/

theorem mem_meet_of_tail {as bs : List Bool} {x : Bool} (h : x ∈ bs.tail) : x ∈ meet as bs := by
  induction as with
  | nil => exact List.mem_of_mem_tail h
  | cons a as ih =>
    cases as with
    | nil =>
      cases bs with
      | nil => cases h
      | cons b bs => exact List.mem_cons_of_mem _ h
    | cons e as =>
      rw [meet]
      · exact List.mem_cons_of_mem _ ih
      all_goals simp

theorem meet_assoc {as bs : List Bool} (cs : List Bool) (hb : bs ≠ []) :
    meet (meet as bs) cs = meet as (meet bs cs) := by
  induction as with
  | nil => rfl
  | cons a as ih =>
    cases as with
    | nil =>
      obtain ⟨b, bs, rfl⟩ := List.exists_cons_of_ne_nil hb
      cases bs with
      | nil => cases cs <;> simp [meet, Bool.and_assoc]
      | cons e bs => simp [meet]
    | cons e as =>
      obtain ⟨x, xs, eq⟩ := List.exists_cons_of_ne_nil (meet_ne_nil (e :: as) hb)
      rw [show meet (a :: e :: as) bs = a :: meet (e :: as) bs from rfl,
        show meet (a :: e :: as) (meet bs cs) = a :: meet (e :: as) (meet bs cs) from rfl, ← ih, eq]
      rfl

theorem factors_append (ρ : Criterion → Bool) {xs ys : List Criterion} (hy : ys ≠ [])
    (filled : FilledAll (xs ++ ys)) :
    factors ρ (xs ++ ys) = meet (factors ρ xs) (factors ρ ys) := by
  induction xs with
  | nil => rfl
  | cons c xs ih =>
    have rest := ih filled.2
    cases xs with
    | nil =>
      obtain ⟨d, ys, rfl⟩ := List.exists_cons_of_ne_nil hy
      rfl
    | cons d xs =>
      have ne := factors_ne_nil ρ (d :: xs) (List.cons_ne_nil _ _) (filledAll_append.1 filled.2).1
      change meet _ (factors ρ (d :: xs ++ ys)) = _
      rw [rest, ← meet_assoc _ ne]
      rfl

theorem showsOrAmong_iff {outer : Connective} {cs : List Criterion} :
    showsOrAmong outer cs ↔ ∃ c ∈ cs, c.isEnclosed outer = false ∧ c.showsOr := by
  induction cs with
  | nil => simp [showsOrAmong]
  | cons c cs ih => simp [showsOrAmong, ih]

/-- A conjunction of several that shows an OR. The member with the OR holds, and one of its
neighbours does not. -/
theorem exists_misread_conj {items : List Criterion} (filled : FilledAll items)
    (apart : (leavesAll items).Nodup) (several : 1 < items.length)
    (shows : showsOrAmong .conjunction items) :
    ∃ ρ, isRead ρ (conj items) = true ∧ items.all (means ρ) = false := by
  obtain ⟨c, mem, bare, choice⟩ := showsOrAmong_iff.1 shows
  obtain ⟨xs, ys, rfl⟩ := List.append_of_mem mem
  by_cases last : ys = []
  · subst last
    have front : xs ≠ [] := by
      rintro rfl
      simp at several
    obtain ⟨ρ, others, member⟩ := exists_uniform_pair filled apart false true
    refine ⟨ρ, ?_, by rw [List.all_append, all_means front others, Bool.false_and]⟩
    -- The last alternative of the member has no neighbour behind it.
    have long := several_alternatives ρ c (filledAll_append.1 filled).2.1 choice
    have holds := (member c List.mem_cons_self).1
    rw [isRead, alternatives, factors_append ρ (List.cons_ne_nil _ _) filled, factors,
      operand_eq ρ bare]
    match c.alternatives ρ, long, holds with
    | a :: b :: as, _, holds =>
      refine List.any_eq_true.2 ⟨b, mem_meet_of_tail List.mem_cons_self, ?_⟩
      exact holds b (List.mem_cons_of_mem _ List.mem_cons_self)
  · rw [List.append_cons] at filled apart ⊢
    obtain ⟨ρ, front, others⟩ := exists_uniform_pair filled apart true false
    refine ⟨ρ, ?_, by rw [List.all_append, all_means last others, Bool.and_false]⟩
    -- The first alternative of the members so far ends before the ones behind them.
    have filledFront := (filledAll_append.1 filled).1
    have long := several_factors ρ (xs ++ [c]) filledFront
      (showsOrAmong_iff.2 ⟨c, by simp, bare, choice⟩)
    have holds := forall_factors filledFront front
    rw [isRead, alternatives, factors_append ρ last filled]
    match factors ρ (xs ++ [c]), long, holds with
    | a :: b :: as, _, holds =>
      exact List.any_eq_true.2 ⟨a, List.mem_cons_self, holds a List.mem_cons_self⟩

theorem filled_of_focus {xs ys : List Criterion} {c : Criterion}
    (filled : FilledAll (xs ++ c :: ys)) : ∀ d ∈ xs ++ ys, d.Filled := by
  rw [filledAll_append] at filled
  exact (filledAll_iff _).1 (filledAll_append.2 ⟨filled.1, filled.2.2⟩)

theorem all_focus {xs ys : List Criterion} {p : Criterion → Bool} (c : Criterion)
    (h : ∀ d ∈ xs ++ ys, p d = true) : (xs ++ c :: ys).all p = p c := by
  rw [List.forall_mem_append] at h
  rw [List.all_append, List.all_cons, List.all_eq_true.2 h.1, List.all_eq_true.2 h.2,
    Bool.true_and, Bool.and_true]

theorem any_focus {xs ys : List Criterion} {p : Criterion → Bool} (c : Criterion)
    (h : ∀ d ∈ xs ++ ys, p d = false) : (xs ++ c :: ys).any p = p c := by
  have none : ∀ zs : List Criterion, (∀ d ∈ zs, p d = false) → zs.any p = false := by
    intro zs hz
    exact List.any_eq_false.2 fun d hd => Bool.not_eq_true _ ▸ hz d hd
  rw [List.forall_mem_append] at h
  rw [List.any_append, List.any_cons, none xs h.1, none ys h.2, Bool.false_or, Bool.or_false]

mutual

theorem exists_misread : ∀ c : Criterion, c.Filled → c.leaves.Nodup → ¬ c.Guarded →
    ∃ ρ, isRead ρ c ≠ c.means ρ
  | .conj items, filled, apart, exposed => by
    by_cases hidden : 1 < items.length → showsOrAmong .conjunction items = false
    · -- The fault is inside a member, which decides once all the others hold.
      have member : ¬ GuardedAll items := fun guarded => exposed ⟨hidden, guarded⟩
      obtain ⟨c, xs, ys, rfl, ρ, differs⟩ := exists_misread_member items filled.2 apart member
      obtain ⟨τ, agree, others⟩ := exists_focus filled.2 apart ρ true
      have read := all_focus c fun d hd => (others d hd).isRead_eq (filled_of_focus filled.2 d hd)
      have meant := all_focus c fun d hd => (others d hd).2
      refine ⟨τ, ?_⟩
      rw [isRead_conj τ filled.1 filled.2 hidden, read, means, meansAll_eq, meant,
        isRead_congr agree, means_congr c agree]
      exact differs
    · push Not at hidden
      obtain ⟨several, shows⟩ := hidden
      obtain ⟨ρ, reads, fails⟩ :=
        exists_misread_conj filled.2 apart several (by simpa using shows)
      refine ⟨ρ, ?_⟩
      rw [reads, means, meansAll_eq, fails]
      decide
  | .disj items, filled, apart, exposed => by
    obtain ⟨c, xs, ys, rfl, ρ, differs⟩ := exists_misread_member items filled.2 apart exposed
    obtain ⟨τ, agree, others⟩ := exists_focus filled.2 apart ρ false
    have read := any_focus c fun d hd => (others d hd).isRead_eq (filled_of_focus filled.2 d hd)
    have meant := any_focus c fun d hd => (others d hd).2
    refine ⟨τ, ?_⟩
    rw [isRead_disj, read, means, meansAny_eq, meant, isRead_congr agree, means_congr c agree]
    exact differs
  | .neg inner, filled, apart, exposed => by
    obtain ⟨ρ, differs⟩ := exists_misread inner filled apart exposed
    refine ⟨ρ, fun same => differs ?_⟩
    rw [isRead_neg, means] at same
    exact Bool.not_inj same
  | .compare _ _ _, _, _, exposed | .member _ _ _, _, _, exposed | .isNull _ _, _, _, exposed
  | .like _ _ _, _, _, exposed | .regex _ _, _, _, exposed | .between _ _ _, _, _, exposed
  | .raw _, _, _, exposed => absurd trivial exposed

theorem exists_misread_member : ∀ cs : List Criterion, FilledAll cs → (leavesAll cs).Nodup →
    ¬ GuardedAll cs → ∃ c xs ys, cs = xs ++ c :: ys ∧ ∃ ρ, isRead ρ c ≠ c.means ρ
  | [], _, _, exposed => absurd trivial exposed
  | c :: cs, filled, apart, exposed => by
    by_cases guarded : c.Guarded
    · have member : ¬ GuardedAll cs := fun rest => exposed ⟨guarded, rest⟩
      obtain ⟨d, xs, ys, rfl, found⟩ :=
        exists_misread_member cs filled.2 (List.nodup_append.1 apart).2.1 member
      exact ⟨d, c :: xs, ys, rfl, found⟩
    · exact ⟨c, [], cs, rfl, exists_misread c filled.1 (List.nodup_append.1 apart).1 guarded⟩

end

end Criterion

/-! ### Conditions of queries -/

namespace Query

/-- The conditions of a query are read as their conjunction when every conjunction in them is
guarded, the whole of them included, and with independent leaves only then. -/
theorem where_read_iff {q : Query} (ne : q.wheres ≠ []) (filled : Criterion.FilledAll q.wheres) :
    q.whereSql = " WHERE " ++ Token.join q.scope (Criterion.joined .conjunction q.wheres) ∧
      ((Criterion.conj q.wheres).Guarded → ∀ ρ,
        evaluate ρ (Criterion.joined .conjunction q.wheres) =
          some (q.wheres.all (Criterion.means ρ))) ∧
      ((Criterion.leavesAll q.wheres).Nodup →
        (∀ ρ, evaluate ρ (Criterion.joined .conjunction q.wheres) =
          some (q.wheres.all (Criterion.means ρ))) → (Criterion.conj q.wheres).Guarded) := by
  have whole : (Criterion.conj q.wheres).Filled := ⟨ne, filled⟩
  have read : ∀ ρ, evaluate ρ (Criterion.joined .conjunction q.wheres) =
      some (Criterion.isRead ρ (.conj q.wheres)) := fun ρ => evaluate_tokens ρ whole
  have meant : ∀ ρ, (Criterion.conj q.wheres).means ρ = q.wheres.all (Criterion.means ρ) :=
    fun ρ => Criterion.meansAll_eq ρ q.wheres
  refine ⟨?_, fun guarded ρ => ?_, fun apart same => ?_⟩
  · have some : q.wheres.isEmpty = false := by simpa using ne
    rw [whereSql, some, join_joined]
    rfl
  · rw [read, Criterion.isRead_eq_means ρ _ whole guarded, meant]
  · by_contra exposed
    obtain ⟨ρ, differs⟩ := Criterion.exists_misread _ whole apart exposed
    have agree := same ρ
    rw [read, ← meant, Option.some.injEq] at agree
    exact differs agree

theorem where_read_iff_choice :
    let q := ((Query.new .select ⟨"tabTask"⟩ .mariadb).restrict
      (.disj [.raw "a", .raw "b"])).restrict (.raw "c")
    q.whereSql = " WHERE ((a) OR (b)) AND (c)" ∧
      ∀ ρ, evaluate ρ (Criterion.joined .conjunction q.wheres) =
        some (q.wheres.all (Criterion.means ρ)) := by
  intro q
  have filled : Criterion.FilledAll q.wheres :=
    ⟨⟨List.cons_ne_nil _ _, trivial, trivial, trivial⟩, trivial, trivial⟩
  have guarded : (Criterion.conj q.wheres).Guarded :=
    ⟨fun _ => rfl, ⟨trivial, trivial, trivial⟩, trivial, trivial⟩
  obtain ⟨_, read, _⟩ := where_read_iff (q := q) (List.cons_ne_nil _ _) filled
  exact ⟨by decide +kernel, read guarded⟩

/-- A choice that is the only member of another one has lost its parentheses, so that a row passes
that does not meet the condition besides it. -/
theorem where_misread_nested_choice :
    let q := ((Query.new .select ⟨"tabTask"⟩ .mariadb).restrict
      (.disj [.disj [.raw "a", .raw "b"]])).restrict (.raw "c")
    let ρ : Criterion → Bool := fun | .raw sql => sql == "a" | _ => false
    q.whereSql = " WHERE (a) OR (b) AND (c)" ∧
      evaluate ρ (Criterion.joined .conjunction q.wheres) = some true ∧
      q.wheres.all (Criterion.means ρ) = false := by
  decide +kernel

end Query

end ScopedQuery.Sql
