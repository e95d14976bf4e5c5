import ScopedQuery.Proofs.Lexical.Argument
import ScopedQuery.Proofs.Lexical.Query
import ScopedQuery.Proofs.Request.Material
import ScopedQuery.Proofs.Rows.Material

set_option autoImplicit false

namespace ScopedQuery

open Sql Outcome

def Catalog.Unprovided (c : Catalog) : Prop :=
  (∀ entity, c.hooksOf entity = []) ∧ ∀ entity, c.script? entity = none

theorem Catalog.unprovided_empty : Catalog.empty.Unprovided := by
  constructor
  · intro entity
    simp [hooksOf, empty, Assoc.find?]
  · exact fun _ => rfl

theorem tame_equals (c : Column) {t : Term} (h : t.Tame) : (c.equals t).Tame :=
  ⟨trivial, h, t.follows_eq⟩

theorem tame_childRowsOf (table : Table) (owner : String) (field : Option String) :
    (Selection.childRowsOf table owner field).Tame := by
  have parent := tame_equals (table.column "parent")
    (t := ((Table.ofEntity owner).column "name").term) trivial
  have kind := tame_equals (table.column "parenttype") (t := .text owner) trivial
  cases field with
  | none => exact ⟨parent, kind, trivial⟩
  | some f => exact ⟨parent, kind, tame_equals _ trivial, trivial⟩

theorem tame_joinCriterion (r : Selection.Reference) : r.joinCriterion.Tame := by
  unfold Selection.Reference.joinCriterion
  split
  · exact tame_equals _ trivial
  · exact tame_childRowsOf _ _ _

theorem tameAll_literals (vs : List Literal) : Term.TameAll (vs.map .literal) := by
  rw [Term.tameAll_iff]
  exact List.forall_mem_map.2 fun _ _ => trivial

theorem tameAll_texts (values : List String) : Term.TameAll (values.map Term.text) := by
  rw [Term.tameAll_iff]
  exact List.forall_mem_map.2 fun _ _ => trivial

namespace Filter

theorem tame_operand (value : Operand) : value.term.Tame := by
  cases value with
  | null => trivial
  | scalar v => trivial
  | list vs => exact tameAll_literals vs

theorem tame_memberValues (value : Operand) : Term.TameAll (Operator.memberValues value) := by
  rw [Term.tameAll_iff]
  intro t mem
  obtain ⟨v, rfl⟩ := literal_of_mem_memberValues mem
  trivial

theorem isJoint_of_parse {token : String} {op : BinaryOp}
    (h : Operator.parse token = .ok (.compare op)) : isJoint op.token.toList := by
  have spelled : ∀ e ∈ Operator.spellings, ∀ op, e.2 = .compare op → isJoint op.token.toList := by
    intro e mem op eq
    simp only [Operator.spellings, List.mem_cons, List.not_mem_nil, or_false] at mem
    rcases mem with rfl | rfl | rfl | rfl | rfl | rfl | rfl | rfl | rfl | rfl | rfl | rfl | rfl |
      rfl | rfl | rfl | rfl | rfl | rfl | rfl | rfl <;>
      first | cases eq; decide | cases eq
  exact spelled _ (Operator.mem_spellings_of_parse h) op rfl

theorem tame_criterionOf {c : Catalog} {token : String} {op : Operator} {column : Column}
    {value : Operand} {criterion : Criterion} (parsed : Operator.parse token = .ok op)
    (h : criterionOf c op column value = .ok criterion) : criterion.Tame := by
  have tested : column.term.Tame := trivial
  cases makes_of_criterionOf h with
  | lineage _ => exact ⟨tested, tameAll_texts _⟩
  | null _ _ | isSet _ _ => exact tested
  | compare op _ => exact ⟨tested, tame_operand value, .inl (isJoint_of_parse parsed)⟩
  | like _ _ | regex _ => exact ⟨tested, tame_operand value⟩
  | member _ _ => exact ⟨tested, tame_memberValues value⟩
  | between _ => exact ⟨tested, trivial, trivial⟩

end Filter

namespace Access

theorem tame_or {a b : Criterion} (ha : a.Tame) (hb : b.Tame) : (a.or b).Tame := by
  unfold Criterion.or
  split
  · rw [Criterion.Tame, Criterion.tameAll_iff] at ha ⊢
    intro c hc
    rcases List.mem_append.1 hc with hc | hc
    · exact ha c hc
    · obtain rfl := List.mem_singleton.1 hc
      exact hb
  · exact ⟨ha, hb, trivial⟩

theorem tame_all {cs : List Criterion} (h : Criterion.TameAll cs) : (Criterion.all cs).Tame := by
  unfold Criterion.all
  split
  · exact h.1
  · exact h

theorem tame_oneOf (c : Column) (values : List String) : (c.oneOf values).Tame :=
  ⟨trivial, tameAll_texts values⟩

theorem material_tame {c : Catalog} {table : Table} {v : Viewer} (free : c.Unprovided) :
    Material c table v Criterion.Tame where
  owner := tame_equals _ trivial
  isNull _ := trivial
  oneOf _ := tame_oneOf _
  provided sql provides := by
    rcases provides.2 with ⟨hook, there, _⟩ | ⟨script, there, _⟩
    · rw [free.1] at there
      cases there
    · rw [free.2] at there
      cases there
  all _ each := tame_all ((Criterion.tameAll_iff _).2 each)
  or _ _ := tame_or

end Access

namespace Request

variable {c : Catalog} {d : Dialect} {s : Settings} {v : Viewer} {r : Request} {m m' : Memo}
  {q q' : Query}

theorem material_tame {table : Table} : Material c d table Term.Tame Criterion.Tame where
  star := trivial
  column _ := trivial
  position _ := trivial
  call _ _ := Function.tame_of_parseCall
  child _ _ := tame_childRowsOf _ _ _
  reference := tame_joinCriterion
  made _ _ _ _ _ := Filter.tame_criterionOf

theorem grows_confine {strict : Bool} (free : c.Unprovided)
    (h : confine c strict v q = .ok q') : Grows Term.Tame Criterion.Tame q q' := by
  obtain ⟨criteria, rfl, tame⟩ := (Access.material_tame free).wheres rfl h
  exact { Grows.refl q with wheres := ⟨criteria, rfl, tame⟩ }

theorem tame_of_grows (h : Grows Term.Tame Criterion.Tame q q') (tame : q.Tame) : q'.Tame where
  selects := (Term.tameAll_iff _).2 (h.selects.forall_mem ((Term.tameAll_iff _).1 tame.selects))
  joins := h.joins.forall_mem tame.joins
  wheres := (Criterion.tameAll_iff _).2
    (h.wheres.forall_mem ((Criterion.tameAll_iff _).1 tame.wheres))
  groupBys := (Term.tameAll_iff _).2
    (h.groupBys.forall_mem ((Term.tameAll_iff _).1 tame.groupBys))
  orderBys := h.orderBys.forall_mem tame.orderBys
  assignments := h.assignments ▸ tame.assignments
  rows := h.rows ▸ tame.rows

theorem grows_asked {table : Table} {picked asked : Query} (textual : r.Textual)
    (select : selectFields c d v r table m = (.ok picked, m'))
    (arrange : arrange c r picked = .ok asked) :
    Grows Term.Tame Criterion.Tame (.new r.mode table d) asked :=
  material_tame.grows textual select arrange

theorem tame_build (textual : r.Textual) (free : c.Unprovided)
    (h : r.build c s v m = (.ok q, m')) : q.Tame ∧ q.dialect = s.dialect := by
  obtain ⟨table, picked, asked, _, select, arrange, confine⟩ := build_ok h
  have grown := (grows_asked textual select arrange).trans (grows_confine free confine)
  exact ⟨tame_of_grows grown (Query.tame_new _ _ _), grown.dialect⟩

/-- The statement built for a document is inert, whatever was asked before. -/
theorem inert_build {j : Json} (read : ofJson j = .ok r) (free : c.Unprovided)
    (h : r.build c s v m = (.ok q, m')) : Inert s.dialect q.sql := by
  obtain ⟨tame, dialect⟩ := tame_build (textual_of_ofJson read) free h
  rw [← dialect]
  exact Query.inert_sql tame

theorem inert_build_hostile_filter :
    let j := Json.obj [("entity", .str "Task"), ("filters", .obj [("title", .str "' OR 1=1 -- ")])]
    let v := (Viewer.ofUser "jane").trustedUnder "Project"
    ∃ r q m', ofJson j = .ok r ∧ r.build .empty .standard v (.empty 1) = (.ok q, m') ∧
      Inert .mariadb q.sql := by
  intro j v
  refine ⟨_, _, _, rfl, rfl, ?_⟩
  exact inert_build (j := j) (c := .empty) (s := .standard) (v := v) (m := .empty 1) rfl
    Catalog.unprovided_empty rfl

end Request

end ScopedQuery
