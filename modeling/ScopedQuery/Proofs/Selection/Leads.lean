import ScopedQuery.Proofs.Clause.Spelling
import ScopedQuery.Proofs.Outcome
import ScopedQuery.Selection.Reference

set_option autoImplicit false

namespace ScopedQuery

open Outcome

theorem Text.after?_eq_some {head cs rest : List Char} :
    Text.after? head cs = some rest ↔ cs = head ++ rest := by
  induction head generalizing cs with
  | nil => exact Option.some_inj
  | cons x head ih =>
    cases cs with
    | nil => exact ⟨nofun, nofun⟩
    | cons y cs =>
      rw [Text.after?, Text.afterFolded?, ← Text.after?, List.cons_append, List.cons.injEq, ← ih]
      split
      · next same =>
        have eq : y = x := by simpa using same
        simp [eq]
      · next other =>
        have ne : y ≠ x := by simpa using other
        simp [ne]

namespace Sql.Table

variable {name entity : String}

theorem afterPrefix?_eq_some : afterPrefix? name = some entity ↔ name = namePrefix ++ entity := by
  unfold afterPrefix?
  simp only [Option.map_eq_some_iff, Text.after?_eq_some, ← String.toList_inj,
    String.toList_append, String.toList_ofList]
  constructor
  · rintro ⟨rest, eq, rfl⟩
    exact eq
  · intro eq
    exact ⟨_, eq, rfl⟩

theorem entity_ofEntity (entity : String) : (ofEntity entity).entity = entity := by
  have after : afterPrefix? (ofEntity entity).name = some entity := afterPrefix?_eq_some.2 rfl
  unfold Table.entity
  rw [after, Option.getD_some]

theorem ofEntity_inj {other : String} : ofEntity entity = ofEntity other ↔ entity = other := by
  constructor
  · intro eq
    rw [← entity_ofEntity entity, eq, entity_ofEntity]
  · exact congrArg ofEntity

end Sql.Table

theorem Catalog.field?_ok {c : Catalog} {entity fieldname : String} {f : Field}
    (h : c.field? entity fieldname = .ok (some f)) :
    ∃ e, c.entity entity = .ok e ∧ f ∈ e.fields ∧ f.fieldname = fieldname := by
  unfold field? at h
  obtain ⟨e, declared, h⟩ := bind_eq_ok.1 h
  have found : e.fields.find? (fun f => f.fieldname == fieldname) = some f := Except.ok.inj h
  exact ⟨e, declared, List.mem_of_find?_eq_some found, by simpa using List.find?_some found⟩

namespace Selection

/-- The column of another entity to which an expression leads from its owner, and the way there. -/
inductive Leads (c : Catalog) (owner : String) (expr : List Char) : String → String → Route → Prop
  | table {entity column : String} (found : foreignColumn? owner expr = some (entity, column)) :
    Leads c owner expr entity column (.rows none)
  | link {e : Catalog.Entity} {f : Catalog.Field} {column entity : String}
    (pair : dottedPair? expr = some (f.fieldname, column)) (declared : c.entity owner = .ok e)
    (mem : f ∈ e.fields) (type : f.type = .link) (target : f.target = some entity) :
    Leads c owner expr entity column (.link f.fieldname)
  | collection {e : Catalog.Entity} {f : Catalog.Field} {column entity : String}
    (pair : dottedPair? expr = some (f.fieldname, column)) (declared : c.entity owner = .ok e)
    (mem : f ∈ e.fields) (type : f.type.isCollection) (target : f.target = some entity) :
    Leads c owner expr entity column (.rows (some f.fieldname))

variable {c : Catalog} {owner text : String} {r : Reference}

section Pairs

variable {cs : List Char} {front back : String}

theorem spelled_of_quotedPair? (h : quotedPair? cs = some (front, back)) :
    (⟨some front, back⟩ : Clause.ColumnText).SpelledBy cs := by
  unfold quotedPair? at h
  split at h
  · cases h
  split at h
  · split at h
    · next table x r first =>
      split at h
      · split at h
        · next column second =>
          cases h
          obtain ⟨a, spells, eq⟩ := Clause.spells_of_readName first
          obtain ⟨b, spells', eq'⟩ := Clause.spells_of_readName second
          rw [List.append_nil] at eq'
          rw [eq, eq']
          exact .qualified spells spells'
        · cases h
      · cases h
    · cases h
  · cases h

theorem spelled_of_dottedPair? (h : dottedPair? cs = some (front, back)) :
    (⟨some front, back⟩ : Clause.ColumnText).SpelledBy cs := by
  unfold dottedPair? at h
  split at h
  · next x word r taken left =>
    split at h
    · next second =>
      cases h
      simp only [Bool.and_eq_true, Bool.not_eq_true', List.isEmpty_eq_false_iff,
        List.all_eq_true] at second
      have first : ∀ c ∈ cs.takeWhile Text.isWordChar, Text.isWordChar c :=
        fun c mem => List.all_eq_true.1 List.all_takeWhile c mem
      have whole : cs = cs.takeWhile Text.isWordChar ++ '.' :: r := by
        rw [← left, List.takeWhile_append_dropWhile]
      conv => arg 2; rw [whole]
      exact .qualified (.bare (by simp [taken]) first) (.bare second.1 second.2)
    · cases h
  · cases h

end Pairs

theorem Leads.spelled {expr : List Char} {entity column : String} {route : Route}
    (h : Leads c owner expr entity column route) :
    ∃ w : Clause.ColumnText, w.SpelledBy expr ∧ w.column = column ∧
      (w.table = some (Sql.Table.namePrefix ++ entity) ∧ entity ≠ "" ∨
        ∃ e f, c.entity owner = .ok e ∧ f ∈ e.fields ∧ f.target = some entity) := by
  cases h with
  | table found =>
    unfold foreignColumn? at found
    obtain ⟨⟨table, back⟩, pair, found⟩ := Option.bind_eq_some_iff.1 found
    obtain ⟨target, behind, found⟩ := Option.bind_eq_some_iff.1 found
    split at found
    · cases found
    next proper =>
    cases found
    rw [Sql.Table.afterPrefix?_eq_some] at behind
    refine ⟨_, spelled_of_quotedPair? pair, rfl, .inl ⟨congrArg some behind, ?_⟩⟩
    rintro rfl
    exact proper rfl
  | link pair declared mem _ target =>
    exact ⟨_, spelled_of_dottedPair? pair, rfl, .inr ⟨_, _, declared, mem, target⟩⟩
  | collection pair declared mem _ target =>
    exact ⟨_, spelled_of_dottedPair? pair, rfl, .inr ⟨_, _, declared, mem, target⟩⟩

theorem Reference.leads_of_parse (h : parse c owner text = .ok (some r)) :
    r.owner = owner ∧ ∃ expr label, Clause.splitLabel text.toList = (expr, label) ∧
      r.label = label.map String.ofList ∧ Leads c owner expr r.entity r.fieldname r.route := by
  unfold parse at h
  dsimp only at h
  split at h
  · cases h
  obtain ⟨expr, label, divided⟩ : ∃ expr label, Clause.splitLabel text.toList = (expr, label) :=
    ⟨_, _, rfl⟩
  rw [divided] at h
  dsimp only at h
  split at h
  · obtain ⟨⟨entity, column⟩, found, rfl⟩ := Option.map_eq_some_iff.1 (Except.ok.inj h)
    exact ⟨rfl, expr, label, divided, rfl, .table found⟩
  split at h
  · cases h
  next field column pair =>
  obtain ⟨declared, found, h⟩ := bind_eq_ok.1 h
  split at h
  · next f =>
    have through : throughField? owner f column (label.map String.ofList) = some r :=
      Except.ok.inj h
    obtain ⟨e, entity, mem, rfl⟩ := Catalog.field?_ok found
    unfold throughField? at through
    split at through
    · cases through
    next target =>
    split at through
    · next type =>
      cases through
      exact ⟨rfl, expr, label, divided, rfl, .link pair entity mem (by simpa using type) target⟩
    split at through
    · next type =>
      cases through
      exact ⟨rfl, expr, label, divided, rfl, .collection pair entity mem type target⟩
    · cases through
  · cases h

end Selection

end ScopedQuery
