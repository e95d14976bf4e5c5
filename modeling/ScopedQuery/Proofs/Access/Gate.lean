import ScopedQuery.Access.Gate
import ScopedQuery.Proofs.Outcome

set_option autoImplicit false

namespace ScopedQuery

open Outcome

namespace Catalog

/-- Whether a user holds a capability on an entity. Where a grant of their own is missing, child
records are reached through the grant on their parent entity. -/
inductive Holds (c : Catalog) (user : String) (parent : Option String) (entity : String)
    (capability : Capability) : Prop
  | own {a : Access} (granted : c.access? entity user = some a) (allowed : a.allows capability) :
    Holds c user parent entity capability
  | through {a : Access} {above : String} (free : c.access? entity user = none)
    (child : c.isChildEntity entity = .ok true) (under : parent = some above)
    (granted : c.access? above user = some a) (allowed : a.allows capability) :
    Holds c user parent entity capability

variable {c : Catalog} {user entity : String} {parent : Option String} {capability : Capability}

theorem isChildEntity_eq (c : Catalog) (entity : String) :
    c.isChildEntity entity = (c.entity entity).map Entity.isChild := by
  unfold isChildEntity
  cases c.entity entity with
  | error e => rfl
  | ok e => rfl

theorem hasPermission_eq_true :
    c.hasPermission entity capability user parent = .ok true ↔
      c.Holds user parent entity capability := by
  unfold hasPermission
  constructor
  · intro h
    split at h
    · next a granted => exact .own granted (Except.ok.inj h)
    · next free =>
      split at h
      · cases h
      · next above =>
        obtain ⟨e, declared, h⟩ := bind_eq_ok.1 h
        obtain ⟨child, granted⟩ := Bool.and_eq_true_iff.1 (Except.ok.inj h)
        obtain ⟨a, granted, allowed⟩ := (Option.any_eq_true _ _).1 granted
        refine .through free ?_ rfl granted allowed
        rw [isChildEntity_eq, declared]
        exact congrArg Except.ok child
  · intro h
    cases h with
    | own granted allowed =>
      rw [granted]
      exact congrArg Except.ok allowed
    | through free child under granted allowed =>
      rw [isChildEntity_eq] at child
      obtain ⟨e, declared, isChild⟩ := map_eq_ok.1 child
      rw [free, under]
      refine bind_eq_ok.2 ⟨e, declared, ?_⟩
      rw [isChild, granted]
      exact congrArg Except.ok allowed

theorem hasPermission_cases (c : Catalog) (entity : String) (capability : Capability)
    (user : String) (parent : Option String) :
    (∃ held, c.hasPermission entity capability user parent = .ok held) ∨
      c.hasPermission entity capability user parent = .error (.unknownEntity entity) ∧
        c.entity entity = .error (.unknownEntity entity) := by
  unfold hasPermission
  split
  · exact .inl ⟨_, rfl⟩
  split
  · exact .inl ⟨_, rfl⟩
  cases declared : c.entity entity with
  | ok e => exact .inl ⟨_, rfl⟩
  | error fault =>
    unfold Catalog.entity at declared
    split at declared
    · cases declared
    · cases declared
      exact .inr ⟨rfl, rfl⟩

theorem hasPermission_of_not_holds (h : ¬ c.Holds user parent entity capability) :
    c.hasPermission entity capability user parent = .ok false ∨
      c.hasPermission entity capability user parent = .error (.unknownEntity entity) ∧
        c.entity entity = .error (.unknownEntity entity) := by
  refine (c.hasPermission_cases entity capability user parent).imp_left ?_
  rintro ⟨held, answer⟩
  cases held with
  | false => exact answer
  | true => exact absurd (hasPermission_eq_true.1 answer) h

end Catalog

namespace Access

variable {c : Catalog} {entity : String} {v : Viewer}

def MayRead (c : Catalog) (v : Viewer) (entity : String) : Prop :=
  c.Holds v.user v.parentEntity entity .select ∨ c.Holds v.user v.parentEntity entity .read

theorem mayRead_of_checkRead (h : checkRead c entity v = .ok ()) : MayRead c v entity := by
  unfold checkRead at h
  obtain ⟨selects, first, h⟩ := bind_eq_ok.1 h
  cases selects with
  | true => exact .inl (Catalog.hasPermission_eq_true.1 first)
  | false =>
    obtain ⟨reads, second, h⟩ := bind_eq_ok.1 h
    cases reads with
    | true => exact .inr (Catalog.hasPermission_eq_true.1 second)
    | false => cases h

/-- Whoever passes the gate in front of SQL text may read everything that the text mentions. -/
theorem mayRead_of_checkSql {sql : String} (h : checkSql c sql v = .ok ()) :
    ∀ entity ∈ mentionedEntities sql, MayRead c v entity := by
  intro entity mem
  exact mayRead_of_checkRead (forM_eq_ok.1 h entity mem)

theorem checkRead_of_not_mayRead (h : ¬ MayRead c v entity) :
    ∃ e, checkRead c entity v = .error e ∧ (e = .insufficientPermission entity ∨
      e = .unknownEntity entity ∧ c.entity entity = .error (.unknownEntity entity)) := by
  obtain ⟨noSelect, noRead⟩ := not_or.1 h
  unfold checkRead
  rcases Catalog.hasPermission_of_not_holds noSelect with first | ⟨first, unknown⟩
  · rw [first]
    rcases Catalog.hasPermission_of_not_holds noRead with second | ⟨second, unknown⟩
    · rw [second]
      exact ⟨_, rfl, .inl rfl⟩
    · rw [second]
      exact ⟨_, rfl, .inr ⟨rfl, unknown⟩⟩
  · rw [first]
    exact ⟨_, rfl, .inr ⟨rfl, unknown⟩⟩

end Access

end ScopedQuery
