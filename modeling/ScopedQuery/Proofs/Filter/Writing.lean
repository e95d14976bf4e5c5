import ScopedQuery.Proofs.Filter.WellFormed

set_option autoImplicit false

/-!
The ways to write conditions on the queried entity: as members of an object, as arrays that name the
field, and as arrays that name the queried entity too, with objects and arrays grouped at will. What
a filter does depends on the conditions alone, one after the other, and on none of these choices.
-/

namespace ScopedQuery.Filter

open Sql Outcome

structure Requirement where
  field : String
  operator : String
  value : Json

def Requirement.condition (r : Requirement) : Condition := ⟨none, r.field, r.operator, r.value⟩

inductive Requirement.IsMember : Requirement → Json → Prop
  | equal {field : String} {value : Json} (flat : ∀ items, value ≠ .arr items) :
    IsMember ⟨field, "=", value⟩ value
  | pair (r : Requirement) : r.IsMember (.arr [.str r.operator, r.value])

inductive Requirement.IsTuple (owner : String) : Requirement → List Json → Prop
  | pair (field : String) (value : Json) : IsTuple owner ⟨field, "=", value⟩ [.str field, value]
  | triple (r : Requirement) : r.IsTuple owner [.str r.field, .str r.operator, r.value]
  | quadruple (r : Requirement) :
    r.IsTuple owner [.str owner, .str r.field, .str r.operator, r.value]

/-- Whether an object writes requirements, each on a field of its own. -/
structure WritesMembers (rs : List Requirement) (members : List (String × Json)) : Prop where
  each : List.Forall₂ (fun r m => m.1 = r.field ∧ r.IsMember m.2) rs members
  apart : (rs.map Requirement.field).Nodup

inductive WritesItems (owner : String) : List Requirement → List Json → Prop
  | nil : WritesItems owner [] []
  | tuple {r : Requirement} {items : List Json} {rs : List Requirement} {rest : List Json}
    (first : r.IsTuple owner items) (others : WritesItems owner rs rest) :
    WritesItems owner (r :: rs) (.arr items :: rest)
  | object {members : List (String × Json)} {rs rs' : List Requirement} {rest : List Json}
    (first : WritesMembers rs members) (others : WritesItems owner rs' rest) :
    WritesItems owner (rs ++ rs') (.obj members :: rest)

mutual

inductive Writes (owner : String) : List Requirement → Filter → Prop
  | object {rs : List Requirement} {members : List (String × Json)}
    (all : WritesMembers rs members) : Writes owner rs (.json (.obj members))
  | array {rs : List Requirement} {items : List Json} (all : WritesItems owner rs items) :
    Writes owner rs (.json (.arr items))
  | list {rs : List Requirement} {filters : List Filter} (all : WritesAll owner rs filters) :
    Writes owner rs (.list filters)

inductive WritesAll (owner : String) : List Requirement → List Filter → Prop
  | nil : WritesAll owner [] []
  | cons {rs rs' : List Requirement} {f : Filter} {filters : List Filter}
    (first : Writes owner rs f) (others : WritesAll owner rs' filters) :
    WritesAll owner (rs ++ rs') (f :: filters)

end

def Requirement.IsStep (owner : String) (r : Requirement) (step : Step) : Prop :=
  ∃ entity ∈ [none, some owner], step = .condition { r.condition with entity := entity }

section Steps

variable {owner : String} {r : Requirement} {rs : List Requirement}

theorem Requirement.isStep_condition (owner : String) (r : Requirement) :
    r.IsStep owner (.condition r.condition) :=
  ⟨none, List.mem_cons_self, rfl⟩

theorem isStep_ofMember {value : Json} (h : r.IsMember value) :
    Step.ofMember r.field value = .condition r.condition := by
  cases h with
  | pair => rfl
  | @equal field _ flat =>
    cases value with
    | arr items => exact absurd rfl (flat items)
    | null | bool | int | float | str | obj => rfl

theorem isStep_ofTuple {items : List Json} (h : r.IsTuple owner items) :
    r.IsStep owner (Step.ofTuple items) := by
  cases h with
  | pair field value => exact Requirement.isStep_condition owner ⟨field, "=", value⟩
  | triple => exact r.isStep_condition owner
  | quadruple => exact ⟨some owner, by simp, rfl⟩

theorem steps_of_members {members : List (String × Json)} (h : WritesMembers rs members) :
    List.Forall₂ (Requirement.IsStep owner) rs (stepsOfJson (.obj members)) := by
  obtain ⟨each, _⟩ := h
  rw [stepsOfJson, List.forall₂_map_right_iff]
  refine each.imp fun r m written => ?_
  obtain ⟨field, value⟩ := m
  obtain ⟨rfl, member⟩ := written
  dsimp only
  rw [isStep_ofMember member]
  exact r.isStep_condition owner

theorem steps_of_items {items : List Json} (h : WritesItems owner rs items) :
    List.Forall₂ (Requirement.IsStep owner) rs (stepsOfItems items) := by
  induction h with
  | nil => exact .nil
  | tuple first _ ih => exact .cons (isStep_ofTuple first) ih
  | object first _ ih => exact List.rel_append (steps_of_members first) ih

theorem stepsOfJson_of_items {items : List Json} (h : WritesItems owner rs items) :
    stepsOfJson (.arr items) = stepsOfItems items := by
  cases h with
  | nil => rfl
  | tuple | object => rfl

mutual

theorem steps_of_writes : ∀ {rs : List Requirement} {f : Filter}, Writes owner rs f →
    List.Forall₂ (Requirement.IsStep owner) rs f.steps
  | _, _, .object all => steps_of_members all
  | _, _, .array all => by
    rw [Filter.steps, stepsOfJson_of_items all]
    exact steps_of_items all
  | _, _, .list all => steps_of_writesAll all

theorem steps_of_writesAll : ∀ {rs : List Requirement} {filters : List Filter},
    WritesAll owner rs filters →
      List.Forall₂ (Requirement.IsStep owner) rs (stepsOfList filters)
  | _, _, .nil => .nil
  | _, _, .cons first others => List.rel_append (steps_of_writes first) (steps_of_writesAll others)

end

end Steps

variable {c : Catalog} {q : Query} {rs : List Requirement} {f g : Filter}

theorem applyStep_of_isStep {r : Requirement} {step : Step} (h : r.IsStep q.table.entity step) :
    applyStep c q step = applyCondition c q r.condition := by
  obtain ⟨entity, mem, rfl⟩ := h
  have dropped : entity.filter (fun e => e != q.table.entity) = none := by
    simp only [List.mem_cons, List.not_mem_nil, or_false] at mem
    rcases mem with rfl | rfl
    · rfl
    · simp
  unfold applyStep applyCondition
  simp only [dropped]
  rfl

theorem foldlM_of_isStep {steps : List Step}
    (h : List.Forall₂ (Requirement.IsStep q.table.entity) rs steps) :
    steps.foldlM (applyStep c) q = rs.foldlM (fun q r => applyCondition c q r.condition) q := by
  induction rs generalizing q steps with
  | nil =>
    rw [List.forall₂_nil_left_iff.1 h]
    rfl
  | cons r rs ih =>
    obtain ⟨step, steps, first, others, rfl⟩ := List.forall₂_cons_left_iff.1 h
    rw [List.foldlM_cons, List.foldlM_cons, applyStep_of_isStep first]
    cases applied : applyCondition c q r.condition with
    | error fault => rfl
    | ok q' =>
      -- The table stays, so that the owner of the further conditions is still the queried entity.
      obtain ⟨_, extends', _⟩ := becomes_of_applyCondition applied
      rw [← extends'.table] at others
      exact ih others

/-- A filter that writes requirements adds their conditions one after the other, and every other
filter that writes the same requirements has the same outcome, be it a query or an error. -/
theorem apply_of_writes (h : Writes q.table.entity rs f) :
    apply c q f = rs.foldlM (fun q r => applyCondition c q r.condition) q ∧
      ∀ g, Writes q.table.entity rs g → apply c q g = apply c q f := by
  have outcome : ∀ g, Writes q.table.entity rs g →
      apply c q g = rs.foldlM (fun q r => applyCondition c q r.condition) q :=
    fun g written => foldlM_of_isStep (steps_of_writes written)
  exact ⟨outcome f h, fun g written => (outcome g written).trans (outcome f h).symm⟩

def openTasks : List Requirement := [⟨"status", "=", .str "Open"⟩, ⟨"idx", ">=", .int 2⟩,
  ⟨"assigned_to.email", "in", .arr [.str "a", .str "b"]⟩]

def openTasksInTurn : Filter := .list [
  .json (.obj [("status", .str "Open"), ("idx", .arr [.str ">=", .int 2])]),
  .json (.arr [.arr [.str "Task", .str "assigned_to.email", .str "in",
    .arr [.str "a", .str "b"]]])]

def openTasksAtOnce : Filter := .json (.arr [
  .arr [.str "status", .str "Open"],
  .obj [("idx", .arr [.str ">=", .int 2])],
  .arr [.str "assigned_to.email", .str "in", .arr [.str "a", .str "b"]]])

theorem writes_openTasksInTurn : Writes "Task" openTasks openTasksInTurn := by
  have object : WritesMembers [⟨"status", "=", .str "Open"⟩, ⟨"idx", ">=", .int 2⟩]
      [("status", .str "Open"), ("idx", .arr [.str ">=", .int 2])] :=
    ⟨.cons ⟨rfl, .equal nofun⟩ (.cons ⟨rfl, .pair _⟩ .nil), by decide⟩
  have array : WritesItems "Task" [⟨"assigned_to.email", "in", .arr [.str "a", .str "b"]⟩]
      [.arr [.str "Task", .str "assigned_to.email", .str "in", .arr [.str "a", .str "b"]]] :=
    .tuple (.quadruple _) .nil
  exact .list (.cons (.object object) (.cons (.array array) .nil))

theorem writes_openTasksAtOnce : Writes "Task" openTasks openTasksAtOnce := by
  have object : WritesMembers [⟨"idx", ">=", .int 2⟩] [("idx", .arr [.str ">=", .int 2])] :=
    ⟨.cons ⟨rfl, .pair _⟩ .nil, by decide⟩
  exact .array (.tuple (.pair _ _) (.object object (.tuple (.triple _) .nil)))

theorem apply_of_writes_openTasks :
    let q := Query.new .select (.ofEntity "Task") .mariadb
    Writes q.table.entity openTasks openTasksInTurn ∧
      Writes q.table.entity openTasks openTasksAtOnce ∧
      apply Usage.linkedTasks q openTasksAtOnce = apply Usage.linkedTasks q openTasksInTurn ∧
      ∃ q', apply Usage.linkedTasks q openTasksInTurn = .ok q' ∧ q'.wheres.length = 3 ∧
        q'.joins.map Join.table = [.ofEntity "User"] := by
  have applied : ∃ q', apply Usage.linkedTasks (.new .select (.ofEntity "Task") .mariadb)
      openTasksInTurn = .ok q' ∧ q'.wheres.length = 3 ∧
        q'.joins.map Join.table = [.ofEntity "User"] := ⟨_, rfl, rfl, rfl⟩
  intro q
  have queried : q.table.entity = "Task" := by decide
  have inTurn : Writes q.table.entity openTasks openTasksInTurn :=
    queried ▸ writes_openTasksInTurn
  have atOnce : Writes q.table.entity openTasks openTasksAtOnce :=
    queried ▸ writes_openTasksAtOnce
  exact ⟨inTurn, atOnce, (apply_of_writes inTurn).2 _ atOnce, applied⟩

end ScopedQuery.Filter
