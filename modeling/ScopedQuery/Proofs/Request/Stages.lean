import ScopedQuery.Proofs.Outcome
import ScopedQuery.Request.Build

set_option autoImplicit false

namespace ScopedQuery

open Sql Outcome

namespace Request

def filterRows (c : Catalog) (filters : Option Filter) (q : Query) : Result Query :=
  match filters with
  | some f => Filter.apply c q f
  | none => .ok q

def arrange (c : Catalog) (r : Request) (q : Query) : Result Query := do
  let q ← filterRows c r.filters q
  let q ← orderRows r.orderBy q
  let q ← withCount r.limit .invalidLimit .limitTo q
  let q ← withCount r.offset .invalidOffset .skip q
  groupRows r.groupBy (withFlags r q)

def confine (c : Catalog) (strict : Bool) (v : Viewer) (q : Query) : Result Query :=
  if v.enforced then Access.confineRows c v strict q else .ok q

theorem finish_eq (c : Catalog) (strict : Bool) (v : Viewer) (r : Request) (q : Query) :
    finish c strict v r q = (arrange c r q).bind (confine c strict v) := by
  change _ = arrange c r q >>= confine c strict v
  have last : (fun q => if v.enforced then Access.confineRows c v strict q else pure q) =
      confine c strict v := rfl
  unfold finish arrange filterRows
  cases r.filters with
  | none =>
    simp only [bind_assoc, pure_bind]
    simp only [last]
    rfl
  | some f =>
    simp only [bind_assoc]
    rfl

def asked (c : Catalog) (d : Dialect) (v : Viewer) (r : Request) (m : Memo) : Result Query × Memo :=
  match passGate c v r with
  | .error e => (.error e, m)
  | .ok table =>
    let (picked, m) := selectFields c d v r table m
    (picked.bind (arrange c r), m)

theorem build_eq (c : Catalog) (s : Settings) (v : Viewer) (r : Request) (m : Memo) :
    r.build c s v m = ((asked c s.dialect v r m).1.bind (confine c s.strictUserPermissions v),
      (asked c s.dialect v r m).2) := by
  unfold build asked
  cases passGate c v r with
  | error e => rfl
  | ok table =>
    dsimp only
    cases (selectFields c s.dialect v r table m).1 with
    | error e => rfl
    | ok picked => exact congrArg (Prod.mk · _) (finish_eq c _ v r picked)

variable {c : Catalog} {s : Settings} {v : Viewer} {r : Request} {m m' : Memo} {q q' : Query}

theorem build_ok (h : r.build c s v m = (.ok q, m')) :
    ∃ table picked asked, passGate c v r = .ok table ∧
      selectFields c s.dialect v r table m = (.ok picked, m') ∧
      arrange c r picked = .ok asked ∧ confine c s.strictUserPermissions v asked = .ok q := by
  unfold build at h
  split at h
  · cases h
  · next table gate =>
    dsimp only at h
    rw [Prod.mk.injEq] at h
    obtain ⟨picked, selected, finished⟩ := bind_eq_ok.1 h.1
    rw [finish_eq] at finished
    obtain ⟨asked, arranged, confined⟩ := bind_eq_ok.1 finished
    exact ⟨table, picked, asked, gate, Prod.ext selected h.2, arranged, confined⟩

theorem arrange_ok (h : arrange c r q = .ok q') :
    ∃ filtered ordered limited counted, filterRows c r.filters q = .ok filtered ∧
      orderRows r.orderBy filtered = .ok ordered ∧
      withCount r.limit .invalidLimit .limitTo ordered = .ok limited ∧
      withCount r.offset .invalidOffset .skip limited = .ok counted ∧
      groupRows r.groupBy (withFlags r counted) = .ok q' := by
  unfold arrange at h
  obtain ⟨filtered, h₁, h⟩ := bind_eq_ok.1 h
  obtain ⟨ordered, h₂, h⟩ := bind_eq_ok.1 h
  obtain ⟨limited, h₃, h⟩ := bind_eq_ok.1 h
  obtain ⟨counted, h₄, h₅⟩ := bind_eq_ok.1 h
  exact ⟨filtered, ordered, limited, counted, h₁, h₂, h₃, h₄, h₅⟩

theorem passGate_ok {table : Table} (h : passGate c v r = .ok table) :
    r.target.resolve = .ok table ∧ (v.enforced → Access.checkRead c table.entity v = .ok ()) := by
  unfold passGate at h
  obtain ⟨t, resolved, h⟩ := bind_eq_ok.1 h
  cases enforced : v.enforced with
  | false =>
    rw [enforced] at h
    cases h
    exact ⟨resolved, by simp⟩
  | true =>
    rw [enforced] at h
    obtain ⟨_, passed, h⟩ := bind_eq_ok.1 h
    cases h
    exact ⟨resolved, fun _ => passed⟩

theorem selectItems_ok {d : Dialect} {table : Table} {fields : Option Selection}
    {kept : List Selection.Item} (h : selectItems c d v table fields m = (.ok kept, m')) :
    ∃ items, (fields.getD (.entries [])).parse c table d m = (.ok items, m') ∧
      (if v.confinesColumns then Access.narrow c table v items else .ok items) = .ok kept := by
  unfold selectItems at h
  dsimp only at h
  rw [Prod.mk.injEq] at h
  obtain ⟨items, read, narrowed⟩ := bind_eq_ok.1 h.1
  refine ⟨items, ?_, narrowed⟩
  cases fields with
  | none => exact Prod.ext read h.2
  | some s => exact Prod.ext read h.2

def orderItems (orderBy : Option String) : List Clause.Item :=
  match orderBy with
  | none => []
  | some text =>
    match Clause.parseOrderBy text with
    | .ok items => items.map Clause.OrderItem.item
    | .error _ => []

def groupItems (groupBy : Option String) : List Clause.Item :=
  match groupBy with
  | none => []
  | some text =>
    match Clause.parseGroupBy text with
    | .ok items => items
    | .error _ => []

theorem foldlM_put {α β : Type} {item : α → Clause.Item} {fault : α → QueryError}
    {add : Query → α → Term → Query} {xs : List α} (put : Query → List β → Query)
    (entry : α → Term → β) (one : ∀ q a t, add q a t = put q [entry a t])
    (nil : ∀ q, put q [] = q) (append : ∀ q ys zs, put (put q ys) zs = put q (ys ++ zs))
    (keep : ∀ q ys, (put q ys).table = q.table)
    (h : xs.foldlM (fun q a =>
      match (item a).term? q.table with
      | some t => (.ok (add q a t) : Result Query)
      | none => .error (fault a)) q = .ok q') :
    ∃ added, q' = put q added ∧
      List.Forall₂ (fun a y => ∃ t, (item a).term? q.table = some t ∧ y = entry a t) xs added := by
  induction xs generalizing q with
  | nil =>
    cases h
    exact ⟨[], (nil _).symm, .nil⟩
  | cons a xs ih =>
    rw [List.foldlM_cons] at h
    obtain ⟨b, step, h⟩ := bind_eq_ok.1 h
    split at step
    · next t means =>
      cases step
      rw [one] at h
      obtain ⟨added, rfl, others⟩ := ih h
      rw [keep] at others
      exact ⟨entry a t :: added, append q [entry a t] added, .cons ⟨t, means, rfl⟩ others⟩
    · cases step

theorem orderRows_ok {orderBy : Option String} (h : orderRows orderBy q = .ok q') :
    ∃ added, q' = { q with orderBys := q.orderBys ++ added } ∧
      List.Forall₂ (fun item o => item.term? q.table = some o.term) (orderItems orderBy) added := by
  unfold orderRows at h
  unfold orderItems
  split at h
  · cases h
    exact ⟨[], by rw [List.append_nil], .nil⟩
  · obtain ⟨items, read, h⟩ := bind_eq_ok.1 h
    obtain ⟨added, rfl, each⟩ := foldlM_put
      (fun q added => { q with orderBys := q.orderBys ++ added })
      (fun o : Clause.OrderItem => fun t => ⟨t, o.direction⟩) (fun _ _ _ => rfl)
      (fun q => by rw [List.append_nil]) (fun q ys zs => by rw [List.append_assoc])
      (fun _ _ => rfl) h
    simp only [read]
    refine ⟨added, rfl, List.forall₂_map_left_iff.2 (each.imp ?_)⟩
    rintro o _ ⟨t, means, rfl⟩
    exact means

theorem groupRows_ok {groupBy : Option String} (h : groupRows groupBy q = .ok q') :
    ∃ added, q' = { q with groupBys := q.groupBys ++ added } ∧
      List.Forall₂ (fun item t => item.term? q.table = some t) (groupItems groupBy) added := by
  unfold groupRows at h
  unfold groupItems
  split at h
  · cases h
    exact ⟨[], by rw [List.append_nil], .nil⟩
  · obtain ⟨items, read, h⟩ := bind_eq_ok.1 h
    obtain ⟨added, rfl, each⟩ := foldlM_put
      (fun q added => { q with groupBys := q.groupBys ++ added })
      (fun _ : Clause.Item => fun t => t) (fun _ _ _ => rfl)
      (fun q => by rw [List.append_nil]) (fun q ys zs => by rw [List.append_assoc])
      (fun _ _ => rfl) h
    simp only [read]
    refine ⟨added, rfl, each.imp ?_⟩
    rintro item _ ⟨t, means, rfl⟩
    exact means

end Request

end ScopedQuery
