import ScopedQuery.Proofs.Request.Memory
import ScopedQuery.Proofs.Rows.Confinement

set_option autoImplicit false

namespace ScopedQuery

open Sql Outcome

namespace Access

/-- Whether a rule has conditions that are harder to meet than those of another, and is like it
otherwise. -/
structure RowRule.Narrower (r r' : RowRule) : Prop where
  shared : r.shared = r'.shared
  unconditional : r.conditions = [] ↔ r'.conditions = []
  harder : ∀ row : Row, row.PassesAll r.conditions → row.PassesAll r'.conditions

variable {c : Catalog} {e : Catalog.Entity} {table : Table} {v : Viewer} {row : Row}
  {r r' : RowRule}

theorem RowRule.Narrower.refl (r : RowRule) : r.Narrower r := ⟨rfl, Iff.rfl, fun _ => id⟩

theorem RowRule.Narrower.admits (h : r.Narrower r') (admitted : r.Admits table row) :
    r'.Admits table row := by
  unfold RowRule.Admits at admitted ⊢
  rw [← h.shared, ← h.unconditional]
  rcases admitted with shared | ⟨passed, unconditional⟩
  · exact .inl shared
  · exact .inr ⟨h.harder row passed, unconditional⟩

theorem isSome_criterion? : (r.criterion? table).isSome ↔ r.conditions ≠ [] ∨ r.shared ≠ [] := by
  obtain ⟨conditions, shared⟩ := r
  cases conditions <;> cases shared <;> simp [RowRule.criterion?]

theorem RowRule.Narrower.isSome (h : r.Narrower r') :
    (r.criterion? table).isSome ↔ (r'.criterion? table).isSome := by
  rw [isSome_criterion?, isSome_criterion?, h.shared, Ne, h.unconditional]

theorem withinRecords_of_strict (h : WithinRecords c e table v true row) :
    WithinRecords c e table v false row := by
  intro f names confined
  have within := h f names confined
  exact within.imp_right fun lenient => absurd lenient.1 (by decide)

theorem recordConditions_eq_nil : recordConditions c e table v true = [] ↔
    recordConditions c e table v false = [] := by
  have strict : recordConditions c e table v true ≠ [] ↔ _ := recordConditions_ne_nil true
  have lenient : recordConditions c e table v false ≠ [] ↔ _ := recordConditions_ne_nil false
  exact not_iff_not.1 (strict.trans lenient.symm)

theorem narrower_of_strict (provided : List Criterion) (shared : List String) :
    RowRule.Narrower ⟨recordConditions c e table v true ++ provided, shared⟩
      ⟨recordConditions c e table v false ++ provided, shared⟩ where
  shared := rfl
  unconditional := by
    rw [List.append_eq_nil_iff, List.append_eq_nil_iff, recordConditions_eq_nil]
  harder := by
    intro row passed
    rw [Row.passesAll_append, passesAll_recordConditions] at passed ⊢
    exact ⟨withinRecords_of_strict passed.1, passed.2⟩

/-- Only viewers who are confined to records can tell a strict rule from another. -/
theorem rowRule_unconfined (free : requiresOwner (c.rolePermissions table.entity v.user) ∨
    ¬ ((c.rolePermissions table.entity v.user).read ||
      (c.rolePermissions table.entity v.user).select) ∨ c.userPermissions v.user = []) :
    rowRule c table v true = rowRule c table v false := by
  rcases free with owner | hidden | unconfined
  · rw [rowRule_owner owner, rowRule_owner owner]
  · unfold rowRule
    dsimp only
    rw [if_neg hidden, if_neg hidden]
  · have conditions (strict : Bool) : userConditions c table v strict = .ok [] := by
      unfold userConditions
      rw [unconfined]
      rfl
    unfold rowRule
    rw [conditions, conditions]

theorem rowRule_strict (c : Catalog) (table : Table) (v : Viewer) :
    (∃ fault, rowRule c table v true = .error fault ∧ rowRule c table v false = .error fault) ∨
      ∃ r r', rowRule c table v true = .ok r ∧ rowRule c table v false = .ok r' ∧
        r.Narrower r' := by
  -- Strictness is consulted for confined viewers only; for all others both rules are one.
  by_cases free : requiresOwner (c.rolePermissions table.entity v.user) ∨
    ¬ ((c.rolePermissions table.entity v.user).read ||
      (c.rolePermissions table.entity v.user).select) ∨ c.userPermissions v.user = []
  · rw [rowRule_unconfined free]
    cases rowRule c table v false with
    | error fault => exact .inl ⟨fault, rfl, rfl⟩
    | ok r => exact .inr ⟨r, r, rfl, rfl, .refl r⟩
  · rw [not_or, not_or, not_not] at free
    obtain ⟨owner, reads, confined⟩ := free
    rw [rowRule_confined true owner reads confined, rowRule_confined false owner reads confined]
    cases c.entity table.entity with
    | error fault => exact .inl ⟨fault, rfl, rfl⟩
    | ok e => exact .inr ⟨_, _, rfl, rfl, narrower_of_strict _ _⟩

end Access

namespace Request

variable {c : Catalog} {s : Settings} {v : Viewer} {r : Request} {m₁ m₂ : Memo}

theorem confine_strict (c : Catalog) (v : Viewer) (q : Query) :
    (∃ fault, confine c true v q = .error fault ∧ confine c false v q = .error fault) ∨
      ∃ narrow wide : Option Criterion,
        confine c true v q = .ok { q with wheres := q.wheres ++ narrow.toList } ∧
        confine c false v q = .ok { q with wheres := q.wheres ++ wide.toList } ∧
        (narrow.isSome ↔ wide.isSome) ∧
        ∀ row : Row, row.PassesAll narrow.toList → row.PassesAll wide.toList := by
  unfold confine
  by_cases enforced : v.enforced
  · rw [if_pos enforced, if_pos enforced, Access.confineRows_eq, Access.confineRows_eq]
    rcases Access.rowRule_strict c q.table v with ⟨fault, strict, lenient⟩ | h
    · rw [strict, lenient]
      exact .inl ⟨fault, rfl, rfl⟩
    · obtain ⟨rule, rule', strict, lenient, narrower⟩ := h
      rw [strict, lenient]
      refine .inr ⟨_, _, rfl, rfl, narrower.isSome, fun row passed => ?_⟩
      rw [Access.passesAll_criterion?] at passed ⊢
      exact narrower.admits passed
  · rw [if_neg enforced, if_neg enforced]
    refine .inr ⟨none, none, ?_, ?_, Iff.rfl, fun _ => id⟩ <;>
      rw [Option.toList_none, List.append_nil]

/-- Strict builds and others succeed and fail alike, with queries that are alike but for the last
condition, and each row of the strict one is a row of the other. -/
theorem rows_of_strict (sound₁ : m₁.Sound) (sound₂ : m₂.Sound) :
    (∃ fault, (r.build c { s with strictUserPermissions := true } v m₁).1 = .error fault ∧
      (r.build c { s with strictUserPermissions := false } v m₂).1 = .error fault) ∨
    ∃ (q : Query) (narrow wide : Option Criterion),
      (r.build c { s with strictUserPermissions := true } v m₁).1 =
        .ok { q with wheres := q.wheres ++ narrow.toList } ∧
      (r.build c { s with strictUserPermissions := false } v m₂).1 =
        .ok { q with wheres := q.wheres ++ wide.toList } ∧
      (narrow.isSome ↔ wide.isSome) ∧
      ∀ row : Row, row.PassesAll (q.wheres ++ narrow.toList) →
        row.PassesAll (q.wheres ++ wide.toList) := by
  have alike : Memo.Alike (asked c s.dialect v r m₁) (asked c s.dialect v r m₂) :=
    alike_asked sound₁ sound₂ r
  rw [build_eq, build_eq]
  dsimp only
  rw [alike.value]
  cases (asked c s.dialect v r m₂).1 with
  | error fault => exact .inl ⟨fault, rfl, rfl⟩
  | ok q =>
    rcases confine_strict c v q with failed | ⟨narrow, wide, strict, lenient, both, rows⟩
    · exact .inl failed
    · refine .inr ⟨q, narrow, wide, strict, lenient, both, fun row passed => ?_⟩
      rw [Row.passesAll_append] at passed ⊢
      exact ⟨passed.1, rows row passed.2⟩

theorem rows_of_strict_timesheet :
    let build (strict : Bool) := ((all (.entity "Task")).build timesheetReader
      { Settings.standard with strictUserPermissions := strict } (.ofUser "jane") (.empty 1)).1
    ∃ (q : Query) (narrow wide : Option Criterion),
      build true = .ok { q with wheres := q.wheres ++ narrow.toList } ∧
      build false = .ok { q with wheres := q.wheres ++ wide.toList } ∧
      (narrow.isSome ↔ wide.isSome) ∧
      ∀ row : Row, row.PassesAll (q.wheres ++ narrow.toList) →
        row.PassesAll (q.wheres ++ wide.toList) := by
  intro build
  have succeeds : ∃ q, build true = .ok q := ⟨_, rfl⟩
  obtain ⟨q, built⟩ := succeeds
  rcases rows_of_strict (c := timesheetReader) (s := .standard) (v := .ofUser "jane")
    (r := all (.entity "Task")) (Memo.sound_empty 1) (Memo.sound_empty 1) with failed | rows
  · obtain ⟨fault, failed, _⟩ := failed
    cases built.symm.trans failed
  · exact rows

end Request

end ScopedQuery
