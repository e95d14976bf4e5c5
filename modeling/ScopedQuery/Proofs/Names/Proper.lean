import ScopedQuery.Function.Registry
import ScopedQuery.Proofs.Clause.Labelling
import ScopedQuery.Proofs.Rows.Confinement
import ScopedQuery.Proofs.Selection.Leads
import ScopedQuery.Proofs.Selection.Narrowing
import ScopedQuery.Proofs.Sql.Vocabulary

set_option autoImplicit false

namespace ScopedQuery

open Sql Clause

namespace Catalog

def Supplies (c : Catalog) (name : String) : Prop :=
  ∃ entity e, c.entity entity = .ok e ∧ name ∈ e.columns false

def Targets (c : Catalog) (target : String) : Prop :=
  ∃ entity e, c.entity entity = .ok e ∧ ∃ f ∈ e.fields, f.target = some target

/-- Whether a table holds the records of a properly named entity or of a declared target. -/
def NamesTable (c : Catalog) (table : Table) : Prop :=
  ∃ entity, table = .ofEntity entity ∧ (isEntityName entity.toList ∨ c.Targets entity)

/-- Whether a column has proper names. Its table may be the bare prefix, which qualifiers get away
with. -/
structure NamesColumn (c : Catalog) (column : Column) : Prop where
  table : c.NamesTable column.table ∨ column.table = .ofEntity ""
  name : IsWord column.name.toList ∨ c.Supplies column.name
  label : ∀ l ∈ column.label, IsWord l.toList

def vocabulary (c : Catalog) (d : Dialect) (entity user : String) : Vocabulary where
  column := c.NamesColumn
  table := c.NamesTable
  function name := ∃ e ∈ Function.registry, name = (e.spelling d).name
  outermost name := IsWord name.toList
  raw sql := Access.Provides c entity user sql

variable {c : Catalog} {table : Table} {entity name : String}

theorem namesColumn_own (known : c.NamesTable table)
    (proper : IsWord name.toList ∨ c.Supplies name) : c.NamesColumn (table.column name) :=
  ⟨.inl known, proper, nofun⟩

theorem NamesTable.ofEntity_entity (h : c.NamesTable table) : .ofEntity table.entity = table := by
  obtain ⟨entity, rfl, _⟩ := h
  rw [Table.entity_ofEntity]

theorem supplies_of_visible {user : String} {columns : List String}
    (visible : Access.visibleColumns c user entity = .ok columns) (mem : name ∈ columns) :
    c.Supplies name := by
  obtain ⟨e, declared, sublist⟩ := Access.visibleColumns_sublist visible
  refine ⟨entity, e, declared, ?_⟩
  have among := sublist.mem mem
  unfold Entity.columns at among ⊢
  rw [List.mem_append] at among ⊢
  refine among.imp_right fun own => ?_
  obtain ⟨f, there, eq⟩ := List.mem_map.1 own
  -- A column stays one when the computed ones are counted in.
  refine List.mem_map.2 ⟨f, ?_, eq⟩
  simp only [List.mem_filter, Bool.and_eq_true] at there ⊢
  exact ⟨there.1, there.2.1, rfl⟩

theorem supplies_of_link {e : Entity} {f : Field} (declared : c.entity entity = .ok e)
    (mem : f ∈ e.fields) (type : f.type = .link) : c.Supplies f.fieldname := by
  refine ⟨entity, e, declared, ?_⟩
  unfold Entity.columns
  refine List.mem_append_right _ (List.mem_map.2 ⟨f, ?_, rfl⟩)
  simp [mem, type, FieldType.isCollection]

theorem namesTable_of_afterPrefix? {rest : String} (ne : rest ≠ "")
    (word : ∀ x ∈ (Table.namePrefix ++ rest).toList, isEntityChar x) :
    c.NamesTable (.ofEntity rest) := by
  refine ⟨rest, rfl, .inl ?_⟩
  have inside : rest.toList.all isEntityChar := by
    rw [List.all_eq_true]
    intro x mem
    refine word x ?_
    rw [String.toList_append]
    exact List.mem_append_right _ mem
  have some : rest.toList.isEmpty = false := by simpa using ne
  unfold isEntityName
  rw [some, inside]
  rfl

theorem namesColumn_of_resolve? {w : ColumnText} {cs : List Char} {column : Column}
    (home : c.NamesTable table) (spelled : w.SpelledBy cs)
    (resolved : w.resolve? table = some column) : c.NamesColumn column := by
  have name : IsWord w.column.toList := spelled.isWord_column
  unfold ColumnText.resolve? at resolved
  split at resolved
  · cases resolved
    exact namesColumn_own home (.inl name)
  · obtain ⟨t, physical, rfl⟩ := Option.map_eq_some_iff.1 resolved
    obtain ⟨written, behind⟩ := Option.filter_eq_some_iff.1 physical
    obtain ⟨rest, found⟩ := Option.isSome_iff_exists.1 behind
    obtain rfl := Table.afterPrefix?_eq_some.1 found
    refine ⟨?_, .inl name, nofun⟩
    by_cases bare : rest = ""
    · rw [bare]
      exact .inr rfl
    · exact .inl (namesTable_of_afterPrefix? bare (spelled.isEntityChar_table _ written))

section References

open Selection

variable {d : Dialect} {user : String} {r : Reference} {text : String}

theorem within_childRowsOf {child : Table} {owner : String} (known : c.NamesTable child)
    (home : c.NamesTable (.ofEntity owner)) (field : Option String) :
    (childRowsOf child owner field).Within (c.vocabulary d entity user) := by
  have parent : c.NamesColumn (child.column "parent") :=
    namesColumn_own known (.inl (by decide))
  have parenttype : c.NamesColumn (child.column "parenttype") :=
    namesColumn_own known (.inl (by decide))
  have parentfield : c.NamesColumn (child.column "parentfield") :=
    namesColumn_own known (.inl (by decide))
  have name : c.NamesColumn ((Table.ofEntity owner).column "name") :=
    namesColumn_own home (.inl (by decide))
  have ofOwner := Criterion.within_and
    (V := c.vocabulary d entity user) (Criterion.within_equals parent (.column name))
    (Criterion.within_equals parenttype (.literal (.text owner)))
  unfold childRowsOf
  dsimp only
  split
  · exact Criterion.within_and ofOwner (Criterion.within_equals parentfield (.literal _))
  · exact ofOwner

theorem namesTable_of_leads {owner column : String} {expr : List Char} {route : Route}
    (h : Leads c owner expr entity column route) : c.NamesTable (.ofEntity entity) := by
  obtain ⟨w, spelled, _, ⟨qualifier, ne⟩ | ⟨e, f, declared, mem, target⟩⟩ := h.spelled
  · exact namesTable_of_afterPrefix? ne (spelled.isEntityChar_table _ qualifier)
  · exact ⟨entity, rfl, .inr ⟨owner, e, declared, f, mem, target⟩⟩

theorem namesColumn_of_leads {owner column : String} {expr : List Char} {route : Route}
    (h : Leads c owner expr entity column route) {label : Option String}
    (word : ∀ l ∈ label, IsWord l.toList) :
    c.NamesColumn { (Table.ofEntity entity).column column with label := label } := by
  obtain ⟨w, spelled, rfl, _⟩ := h.spelled
  exact ⟨.inl (namesTable_of_leads h), .inl spelled.isWord_column, word⟩

theorem within_joinCriterion {entity' : String} {expr : List Char}
    (home : c.NamesTable (.ofEntity r.owner))
    (h : Leads c r.owner expr r.entity r.fieldname r.route) :
    r.joinCriterion.Within (c.vocabulary d entity' user) := by
  have known : c.NamesTable r.table := namesTable_of_leads h
  unfold Reference.joinCriterion
  cases route : r.route with
  | rows field => exact within_childRowsOf known home field
  | link field =>
    rw [route] at h
    have name : c.NamesColumn (r.table.column "name") :=
      namesColumn_own known (.inl (by decide))
    have link : c.NamesColumn ((Table.ofEntity r.owner).column field) := by
      cases h with
      | link _ declared mem type _ =>
        exact namesColumn_own home (.inr (supplies_of_link declared mem type))
    exact Criterion.within_equals name (.column link)

end References

end Catalog

end ScopedQuery
