import ScopedQuery.Proofs.Request.Memory
import ScopedQuery.Proofs.Rows.Rule

set_option autoImplicit false

namespace ScopedQuery.Request

open Sql Outcome

variable {c : Catalog} {s : Settings} {v : Viewer} {r : Request} {m m' m₁ m₂ m₁' : Memo} {q : Query}

theorem passGate_trusted {table : Table} (h : passGate c v r = .ok table) :
    passGate c { v with enforced := false } r = .ok table := by
  obtain ⟨resolved, _⟩ := passGate_ok h
  unfold passGate
  rw [resolved]
  rfl

theorem selectFields_trusted (d : Dialect) (table : Table) (whole : v.narrowsColumns = false) :
    selectFields c d { v with enforced := false } r table m = selectFields c d v r table m := by
  have confines : v.confinesColumns = false := by
    unfold Viewer.confinesColumns
    rw [whole, Bool.and_false]
  have confines' : ({ v with enforced := false } : Viewer).confinesColumns = false := rfl
  unfold selectFields selectItems
  rw [confines, confines']
  rfl

theorem asked_trusted {d : Dialect} (whole : v.narrowsColumns = false)
    (h : asked c d v r m = (.ok q, m')) :
    asked c d { v with enforced := false } r m = (.ok q, m') := by
  unfold asked at h ⊢
  cases gate : passGate c v r with
  | error e =>
    rw [gate] at h
    cases h
  | ok table =>
    rw [gate] at h
    rw [passGate_trusted gate]
    dsimp only at h ⊢
    rw [selectFields_trusted d table whole]
    exact h

/-- What a viewer of all columns is given, everyone is given without any rule, but for a condition
behind all others. -/
theorem build_trusted (enforced : v.enforced) (whole : v.narrowsColumns = false)
    (sound₁ : m₁.Sound) (sound₂ : m₂.Sound) (built : r.build c s v m₁ = (.ok q, m₁')) :
    ∃ (q' : Query) (m₂' : Memo) (extra : Option Criterion),
      r.build c s { v with enforced := false } m₂ = (.ok q', m₂') ∧
      q = { q' with wheres := q'.wheres ++ extra.toList } := by
  rw [build_eq, Prod.mk.injEq] at built
  obtain ⟨a, answered, confined⟩ := bind_eq_ok.1 built.1
  have trusted := asked_trusted whole (Prod.ext answered built.2)
  -- Without any rule the query stays as it was asked for, with either memory.
  have same : r.build c s { v with enforced := false } m₁ = (.ok a, m₁') := by
    rw [build_eq, trusted]
    rfl
  have alike := alike_build (c := c) (v := { v with enforced := false }) sound₁ sound₂ s r
  rw [same] at alike
  rw [confine, if_pos enforced] at confined
  obtain ⟨rule, _, rfl⟩ := Access.confineRows_ok confined
  obtain ⟨value, _, _⟩ := alike
  exact ⟨a, (r.build c s { v with enforced := false } m₂).2, rule.criterion? a.table,
    Prod.ext value.symm rfl, rfl⟩

def taskReader : Catalog :=
  (((Catalog.empty.withEntity "Task" ⟨false, [.link "project" "Project"], []⟩).grant "jane" "Task"
    ⟨[.read], [], none, none⟩).withUserPermission "jane" "Project" ⟨"P-1", none⟩).share
      "Task" "jane" "T-9"

def titles : Request :=
  { all (.entity "Task") with
    fields := some (.text "project.title as project, name")
    filters := some (.json (.obj [("project", .str "P-1")]))
    groupBy := some "project"
    limit := some 5 }

theorem build_trusted_titles :
    let v := { Viewer.ofUser "jane" with narrowsColumns := false }
    ∃ (q q' : Query) (m m' : Memo) (extra : Option Criterion),
      titles.build taskReader .standard v (.empty 1) = (.ok q, m) ∧
      titles.build taskReader .standard { v with enforced := false } m = (.ok q', m') ∧
      q = { q' with wheres := q'.wheres ++ extra.toList } := by
  intro v
  have built : ∃ q m, titles.build taskReader .standard v (.empty 1) = (.ok q, m) := ⟨_, _, rfl⟩
  obtain ⟨q, m, built⟩ := built
  have sound : m.Sound := by
    have alike := alike_build (c := taskReader) (v := v) (Memo.sound_empty 1) (Memo.sound_empty 1)
      .standard titles
    rw [built] at alike
    exact alike.left
  obtain ⟨q', m', extra, trusted, same⟩ :=
    build_trusted rfl rfl (Memo.sound_empty 1) sound built
  exact ⟨q, q', m, m', extra, built, trusted, same⟩

end ScopedQuery.Request
