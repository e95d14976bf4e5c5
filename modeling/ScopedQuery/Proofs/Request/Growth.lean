import ScopedQuery.Proofs.Filter.Resolution
import ScopedQuery.Proofs.Request.Stages
import ScopedQuery.Proofs.Selection.Items

set_option autoImplicit false

namespace ScopedQuery

open Sql Outcome

def Adds {α : Type} (P : α → Prop) (xs ys : List α) : Prop := ∃ zs, ys = xs ++ zs ∧ ∀ z ∈ zs, P z

namespace Adds

variable {α : Type} {P : α → Prop} {xs ys zs : List α}

theorem refl (xs : List α) : Adds P xs xs := ⟨[], by simp, by simp⟩

theorem one (xs : List α) {x : α} (h : P x) : Adds P xs (xs ++ [x]) := ⟨[x], rfl, by simpa using h⟩

theorem trans (h : Adds P xs ys) (h' : Adds P ys zs) : Adds P xs zs := by
  obtain ⟨a, rfl, ha⟩ := h
  obtain ⟨b, rfl, hb⟩ := h'
  refine ⟨a ++ b, List.append_assoc xs a b, fun z hz => ?_⟩
  rcases List.mem_append.1 hz with hz | hz
  · exact ha z hz
  · exact hb z hz

theorem eq_self (h : Adds P xs ys) (never : ∀ x, ¬ P x) : ys = xs := by
  obtain ⟨zs, rfl, hz⟩ := h
  rw [List.eq_nil_iff_forall_not_mem.2 fun z mem => never z (hz z mem), List.append_nil]

theorem forall_mem (h : Adds P xs ys) (hx : ∀ x ∈ xs, P x) : ∀ y ∈ ys, P y := by
  obtain ⟨zs, rfl, hz⟩ := h
  intro y hy
  rcases List.mem_append.1 hy with hy | hy
  · exact hx y hy
  · exact hz y hy

end Adds

/-- Whether a query goes on from another one with terms and criteria of a kind only. -/
structure Grows (T : Term → Prop) (C : Criterion → Prop) (q q' : Query) : Prop where
  mode : q'.mode = q.mode
  dialect : q'.dialect = q.dialect
  table : q'.table = q.table
  selects : Adds T q.selects q'.selects
  joins : Adds (fun j => C j.on) q.joins q'.joins
  wheres : Adds C q.wheres q'.wheres
  groupBys : Adds T q.groupBys q'.groupBys
  orderBys : Adds (fun o => T o.term) q.orderBys q'.orderBys
  assignments : q'.assignments = q.assignments
  targets : q'.targets = q.targets
  rows : q'.rows = q.rows

variable {T : Term → Prop} {C : Criterion → Prop} {q q' : Query}

namespace Grows

theorem refl (q : Query) : Grows T C q q :=
  ⟨rfl, rfl, rfl, .refl _, .refl _, .refl _, .refl _, .refl _, rfl, rfl, rfl⟩

theorem trans {a b c : Query} (h : Grows T C a b) (h' : Grows T C b c) : Grows T C a c where
  mode := h'.mode.trans h.mode
  dialect := h'.dialect.trans h.dialect
  table := h'.table.trans h.table
  selects := h.selects.trans h'.selects
  joins := h.joins.trans h'.joins
  wheres := h.wheres.trans h'.wheres
  groupBys := h.groupBys.trans h'.groupBys
  orderBys := h.orderBys.trans h'.orderBys
  assignments := h'.assignments.trans h.assignments
  targets := h'.targets.trans h.targets
  rows := h'.rows.trans h.rows

theorem select (q : Query) {t : Term} (ht : T t) : Grows T C q (q.select t) :=
  { refl q with selects := .one _ ht }

theorem restrict (q : Query) {c : Criterion} (hc : C c) : Grows T C q (q.restrict c) :=
  { refl q with wheres := .one _ hc }

theorem leftJoin (q : Query) (table : Table) {on : Criterion} (hon : C on) :
    Grows T C q (q.leftJoin table on) :=
  { refl q with joins := .one _ hon }

theorem ensureJoin (q : Query) (table : Table) {on : Criterion} (hon : C on) :
    Grows T C q (q.ensureJoin table on) := by
  unfold Query.ensureJoin
  split
  · exact refl q
  · exact leftJoin q table hon

theorem orderBy (q : Query) (d : Direction) {t : Term} (ht : T t) : Grows T C q (q.orderBy t d) :=
  { refl q with orderBys := .one _ ht }

theorem groupBy (q : Query) {t : Term} (ht : T t) : Grows T C q (q.groupBy t) :=
  { refl q with groupBys := .one _ ht }

theorem limitTo (q : Query) (n : Nat) : Grows T C q (q.limitTo n) := { refl q with }

theorem skip (q : Query) (n : Nat) : Grows T C q (q.skip n) := { refl q with }

theorem addChild (q : Query) (c : ChildQuery) : Grows T C q (q.addChild c) := { refl q with }

end Grows

namespace Request

theorem grows_withCount {count : Option Int64} {fault : Int64 → QueryError}
    {set : Query → Nat → Query} (hset : ∀ q n, Grows T C q (set q n))
    (h : withCount count fault set q = .ok q') : Grows T C q q' := by
  unfold withCount at h
  split at h
  · cases h
    exact .refl q
  split at h
  · cases h
  split at h
  · cases h
    exact .refl q
  · cases h
    exact hset _ _

theorem grows_withFlags (r : Request) (q : Query) : Grows T C q (withFlags r q) := by
  unfold withFlags
  dsimp only
  split_ifs <;> exact { Grows.refl _ with }

theorem term_of_item {own : Table} {item : Clause.Item} {t : Term} (h : item.term? own = some t)
    (column : ∀ c : Column, T (.column c)) (position : ∀ n, T (.position n)) : T t := by
  cases item with
  | column c =>
    obtain ⟨_, _, rfl⟩ := Option.map_eq_some_iff.1 h
    exact column _
  | position n =>
    cases h
    exact position n

theorem grows_orderRows {orderBy : Option String} (column : ∀ c : Column, T (.column c))
    (position : ∀ n, T (.position n)) (h : orderRows orderBy q = .ok q') : Grows T C q q' := by
  obtain ⟨added, rfl, each⟩ := orderRows_ok h
  refine { Grows.refl q with orderBys := ⟨added, rfl, fun o mem => ?_⟩ }
  obtain ⟨item, _, means⟩ := exists_left each mem
  exact term_of_item means column position

theorem grows_groupRows {groupBy : Option String} (column : ∀ c : Column, T (.column c))
    (position : ∀ n, T (.position n)) (h : groupRows groupBy q = .ok q') : Grows T C q q' := by
  obtain ⟨added, rfl, each⟩ := groupRows_ok h
  refine { Grows.refl q with groupBys := ⟨added, rfl, fun t mem => ?_⟩ }
  obtain ⟨item, _, means⟩ := exists_left each mem
  exact term_of_item means column position

end Request

namespace Filter

variable {c : Catalog}

theorem grows_apply {f : Filter} (child : ∀ table owner, C (Selection.childRowsOf table owner none))
    (reference : ∀ r : Selection.Reference, C r.joinCriterion)
    (made : ∀ token op column value criterion, Operator.parse token = .ok op →
      criterionOf c op column value = .ok criterion → C criterion)
    (ready : ∀ criterion, .criterion criterion ∈ f.steps → C criterion)
    (h : Filter.apply c q f = .ok q') : Grows T C q q' := by
  refine foldlM_invariant (P := Grows T C q) h ?_ (.refl q)
  intro step mem b b' grown applied
  refine grown.trans ?_
  cases step with
  | criterion r =>
    cases applied
    exact .restrict b (ready r mem)
  | malformed fault => cases applied
  | condition f =>
    obtain ⟨_, joined, _, resolved, _, _, parsed, other, field, _, build, rfl⟩ :=
      applyCondition_eq_ok.1 applied
    have first : Grows T C b joined := by
      unfold joinOther at other
      split at other
      · obtain ⟨_, ⟨_, rfl⟩ | ⟨_, _, rfl⟩⟩ := joinChild_eq_ok.1 other
        · exact .refl _
        · exact .leftJoin b _ (child _ _)
      · cases other
        exact .refl _
    have second : Grows T C joined resolved := by
      rcases resolveField_eq_ok.1 field with ⟨r, _, _, rfl⟩ | ⟨_, rfl, _⟩
      · exact .ensureJoin joined _ (reference r)
      · exact .refl _
    exact (first.trans second).trans (.restrict resolved (made _ _ _ _ _ parsed build))

end Filter

namespace Selection

def Item.term? : Item → Option Term
  | .plain c => some (.column c)
  | .star t => some (.star (some t))
  | .position n => some (.position n)
  | .call f => some f.term
  | .reference r => some (.column { r.column with label := r.label })
  | .child _ => none
  | .term t => some t

theorem grows_select (reference : ∀ r : Reference, C r.joinCriterion) {i : Item}
    (term : ∀ t ∈ i.term?, T t) (q : Query) : Grows T C q (i.select q) := by
  cases i with
  | plain c => exact .select q (term _ rfl)
  | star t => exact .select q (term _ rfl)
  | position n => exact .select q (term _ rfl)
  | call f => exact .select q (term _ rfl)
  | reference r => exact (Grows.ensureJoin q _ (reference r)).trans (.select _ (term _ rfl))
  | child c => exact .addChild q c
  | term t => exact .select q (term _ rfl)

theorem grows_selectAll (reference : ∀ r : Reference, C r.joinCriterion) {items : List Item}
    (term : ∀ i ∈ items, ∀ t ∈ i.term?, T t) (name : ∀ c : Column, T (.column c)) (q : Query) :
    Grows T C q (selectAll q items) := by
  have all : ∀ items : List Item, (∀ i ∈ items, ∀ t ∈ i.term?, T t) → ∀ q,
      Grows T C q (items.foldl Item.select q) := by
    intro items
    induction items with
    | nil => exact fun _ => .refl
    | cons i items ih =>
      intro term q
      have first := grows_select reference (term i List.mem_cons_self) q
      exact first.trans (ih (fun j hj => term j (List.mem_cons_of_mem _ hj)) _)
  unfold selectAll
  dsimp only
  split
  · exact all items term q
  · exact (all items term q).trans (.select _ (name _))

end Selection

namespace Request

variable {c : Catalog} {d : Dialect} {v : Viewer} {r : Request} {table : Table} {m m' : Memo}

theorem selectFields_ok (h : selectFields c d v r table m = (.ok q, m')) :
    (∃ items, selectItems c d v table r.fields m = (.ok items, m') ∧
      q = Selection.selectAll (.new r.mode table d) items) ∨ q = .new r.mode table d := by
  unfold selectFields at h
  dsimp only at h
  split at h
  · rw [Prod.mk.injEq] at h
    obtain ⟨items, picked, rfl⟩ := map_eq_ok.1 h.1
    exact .inl ⟨items, Prod.ext picked h.2, rfl⟩
  all_goals
    cases h
    exact .inr rfl

theorem grows_arrange (filter : ∀ filtered, filterRows c r.filters q = .ok filtered →
      Grows T C q filtered)
    (column : ∀ c : Column, T (.column c)) (position : ∀ n, T (.position n))
    (h : arrange c r q = .ok q') : Grows T C q q' := by
  obtain ⟨filtered, ordered, limited, counted, filtering, order, limit, offset, group⟩ :=
    arrange_ok h
  have head : Grows T C q ordered :=
    (filter filtered filtering).trans (grows_orderRows column position order)
  have counts : Grows T C ordered counted :=
    (grows_withCount .limitTo limit).trans (grows_withCount .skip offset)
  have tail : Grows T C counted q' :=
    (grows_withFlags r counted).trans (grows_groupRows column position group)
  exact (head.trans counts).trans tail

end Request

end ScopedQuery
