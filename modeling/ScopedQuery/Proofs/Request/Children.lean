import ScopedQuery.Proofs.Columns.Selected
import ScopedQuery.Proofs.Function.Recognition
import ScopedQuery.Proofs.Request.Memory
import ScopedQuery.Proofs.Selection.Referral
import ScopedQuery.Request.Children

set_option autoImplicit false

namespace ScopedQuery

open Sql Outcome

open Clause (IsWord)

/-! ### Names of columns -/

def Clause.IsColumnName (cs : List Char) : Prop := IsWord cs ∧ Text.isDigits cs = false

open Clause (IsColumnName)

instance : DecidablePred IsColumnName := fun cs =>
  -- The characters of the text are looked at, not all characters that there are.
  have : Decidable (∀ c ∈ cs, Text.isWordChar c) := List.decidableBAll _ cs
  inferInstanceAs (Decidable ((cs ≠ [] ∧ ∀ c ∈ cs, Text.isWordChar c) ∧ Text.isDigits cs = false))

/-- Whether the declared fields of a catalog have the names of columns, and the targets of its
collections the names of entities. -/
structure Catalog.WellNamed (c : Catalog) : Prop where
  fields : ∀ entity e, c.entity entity = .ok e → ∀ f ∈ e.fields, IsColumnName f.fieldname.toList
  targets : ∀ entity e, c.entity entity = .ok e → ∀ f ∈ e.fields, f.type.isCollection →
    ∀ target ∈ f.target, Clause.isEntityName target.toList

theorem Catalog.wellNamed_of_entities {c : Catalog}
    (h : ∀ entry ∈ c.entities, ∀ f ∈ entry.2.fields, IsColumnName f.fieldname.toList ∧
      (f.type.isCollection → ∀ target ∈ f.target, Clause.isEntityName target.toList)) :
    c.WellNamed := by
  constructor
  · intro entity e declared f mem
    obtain ⟨entry, there, rfl⟩ := entry_of_entity declared
    exact (h entry there f mem).1
  · intro entity e declared f mem
    obtain ⟨entry, there, rfl⟩ := entry_of_entity declared
    exact (h entry there f mem).2

theorem Clause.sanitize_of_word {text : String} (word : IsWord text.toList) (d : Dialect) :
    sanitize d text = .ok text := by
  have whole : isLabelledColumn text.toList := by
    have read : ColumnText.read (text.toList ++ []) = _ := ColumnText.read_word word.1 word.2 nofun
    rw [List.append_nil] at read
    unfold isLabelledColumn
    rw [read]
    rfl
  unfold sanitize
  rw [if_pos (by simp [isSelectable, whole]), word.sanitized, String.ofList_toList]

namespace Selection

variable {c : Catalog} {own : Table} {d : Dialect} {m : Memo}

theorem Reference.parse_of_word {text : String} (owner : String) (word : IsWord text.toList) :
    Reference.parse c owner text = .ok none :=
  Reference.parse_of_pointless fun mem => absurd (word.2 '.' mem) (by decide)

theorem parseText_of_columnName {name : String} (h : IsColumnName name.toList) :
    parseText c own d name = .ok (.plain (own.column name)) := by
  obtain ⟨word, numeral⟩ := h
  have absent {x : Char} (other : Text.isWordChar x = false) : x ∉ name.toList := fun mem =>
    Bool.eq_false_iff.1 other (word.2 x mem)
  have star : (name.toList == ['*']) = false := by
    rw [beq_eq_false_iff_ne]
    intro eq
    exact absent (x := '*') (by decide) (by simp [eq])
  have call : Function.mentionsCall name.toList = false := by
    rw [Bool.eq_false_iff]
    intro mentions
    exact absent (by decide) (Function.paren_mem_of_mentionsCallFrom mentions)
  have column : plainColumn? own name.toList = some (own.column name) := by
    have whole : Clause.splitLabel name.toList = (name.toList, none) :=
      Clause.splitLabel_of_unbroken word.1 fun x mem =>
        Clause.not_isBlank_of_isWordChar (word.2 x mem)
    have read := Clause.ColumnText.parse?_eq_some.2 (.bare (.bare word.1 word.2))
    unfold plainColumn?
    rw [whole]
    dsimp only
    rw [read, String.ofList_toList]
    rfl
  unfold parseText
  simp only [star, numeral, call, Reference.parse_of_word own.entity word, column,
    Bool.false_eq_true, ↓reduceIte]
  rfl

theorem parseEntries_of_columnNames {names : List String} (sound : m.Sound)
    (each : ∀ name ∈ names, IsColumnName name.toList) :
    (parseEntries c own d (names.map .text) m).1 =
      .ok (names.map fun name => .plain (own.column name)) := by
  induction names generalizing m with
  | nil => rfl
  | cons name names ih =>
    obtain ⟨first, others⟩ := List.forall_mem_cons.1 each
    have value := sound.sanitize_eq d name
    rw [Clause.sanitize_of_word first.1] at value
    have kept := sound.sanitize d name
    rw [List.map_cons, parseEntries, parseEntry]
    generalize m.sanitize d name = sanitized at value kept
    obtain ⟨text, m'⟩ := sanitized
    cases value
    simp only [Except.bind, parseText_of_columnName first, Except.map]
    rw [ih kept others]
    rfl

end Selection

theorem Filter.applyCondition_of_word {c : Catalog} {q : Query} {field operator : String}
    {op : Operator} {j : Json} {value : Operand} {criterion : Criterion}
    (word : IsWord field.toList) (parsed : Operator.parse operator = .ok op)
    (read : Operand.ofJson j = .ok value)
    (made : criterionOf c op (q.table.column field) value = .ok criterion) :
    applyCondition c q ⟨none, field, operator, j⟩ = .ok (q.restrict criterion) := by
  have written := Clause.ColumnText.parse?_eq_some.2 (.bare (.bare word.1 word.2))
  rw [String.ofList_toList] at written
  have resolved : resolveField c q field none = .ok (q.table.column field, q) :=
    resolveField_iff.2
      (resolve_of_written (Selection.Reference.parse_of_word q.table.entity word) written rfl)
  exact applyCondition_eq_ok.2
    ⟨op, q, _, q, value, criterion, parsed, rfl, resolved, read, made, rfl⟩

/-! ### The query for child rows -/

theorem Request.build_of_stages {c : Catalog} {s : Settings} {v : Viewer} {r : Request} {m : Memo}
    {table : Table} {picked q : Query} (trusted : v.enforced = false)
    (gate : passGate c v r = .ok table)
    (selected : (selectFields c s.dialect v r table m).1 = .ok picked)
    (arranged : arrange c r picked = .ok q) : (r.build c s v m).1 = .ok q := by
  have asked : (asked c s.dialect v r m).1 = .ok q := by
    unfold Request.asked
    rw [gate]
    dsimp only
    rw [selected]
    exact arranged
  rw [build_eq]
  dsimp only
  rw [asked]
  exact if_neg (by simp [trusted])

namespace Sql.ChildQuery

variable {c : Catalog} {q : Query}

/-- The conditions on the child rows of some parents. No parents at all are one empty name. -/
def conditions (child : ChildQuery) (parents : List String) : List Criterion :=
  let table := Table.ofEntity child.entity
  [(table.column "parenttype").equals (.text child.parentEntity),
    (table.column "parentfield").equals (.text child.fieldname),
    (table.column "parent").oneOf (if parents = [] then [""] else parents)]

def rows (child : ChildQuery) (d : Dialect) (parents : List String) : Query :=
  let table := Table.ofEntity child.entity
  { Query.new .select table d with
    selects := (child.fields ++ ["parent", "parentfield"]).map fun f => (table.column f).term
    wheres := child.conditions parents
    orderBys := [⟨(table.column "idx").term, .asc⟩] }

theorem ofJson_names (names : List String) : Filter.Operand.ofJson (.arr (names.map .str)) =
    .ok (.list ((if names = [] then [""] else names).map .text)) := by
  cases names with
  | nil => rfl
  | cons name names =>
    unfold Filter.Operand.ofJson
    refine bind_eq_ok.2 ⟨(name :: names).map .text, mapM_eq_ok.2 ?_, rfl⟩
    rw [List.forall₂_map_left_iff, List.forall₂_map_right_iff]
    exact List.forall₂_same.2 fun _ _ => rfl

theorem apply_conditions (child : ChildQuery) (parents : List String)
    (home : q.table = .ofEntity child.entity) :
    Filter.apply c q (.json (.obj [("parenttype", .str child.parentEntity),
      ("parentfield", .str child.fieldname),
      ("parent", .arr [.str "in", .arr (parents.map .str)])])) =
        .ok { q with wheres := q.wheres ++ child.conditions parents } := by
  have equal (q : Query) {field : String} (word : IsWord field.toList) (text : String) :
      Filter.applyCondition c q ⟨none, field, "=", .str text⟩ =
        .ok (q.restrict ((q.table.column field).equals (.text text))) :=
    Filter.applyCondition_of_word word
      (rfl : Filter.Operator.parse "=" = .ok (.compare .eq)) rfl rfl
  have member (q : Query) {field : String} (word : IsWord field.toList) :
      Filter.applyCondition c q ⟨none, field, "in", .arr (parents.map .str)⟩ =
        .ok (q.restrict ((q.table.column field).oneOf
          (if parents = [] then [""] else parents))) := by
    refine Filter.applyCondition_of_word word
      (rfl : Filter.Operator.parse "in" = .ok (.member false)) (ofJson_names parents) ?_
    unfold Column.oneOf Filter.criterionOf Filter.Operator.build Filter.Operator.memberValues
    simp only [List.map_map]
    rfl
  have steps : Filter.stepsOfJson (.obj [("parenttype", .str child.parentEntity),
      ("parentfield", .str child.fieldname),
      ("parent", .arr [.str "in", .arr (parents.map .str)])]) =
        [.condition ⟨none, "parenttype", "=", .str child.parentEntity⟩,
          .condition ⟨none, "parentfield", "=", .str child.fieldname⟩,
          .condition ⟨none, "parent", "in", .arr (parents.map .str)⟩] := by
    rw [Filter.stepsOfJson]
    rfl
  unfold Filter.apply conditions
  rw [Filter.steps, steps, ← home]
  have words : IsColumnName "parenttype".toList ∧ IsColumnName "parentfield".toList ∧
      IsColumnName "parent".toList := by decide
  refine bind_eq_ok.2 ⟨_, equal q words.1.1 _, bind_eq_ok.2 ⟨_, equal _ words.2.1.1 _,
    bind_eq_ok.2 ⟨_, member _ words.2.2.1, ?_⟩⟩⟩
  refine congrArg Except.ok ?_
  simp only [Query.restrict, List.append_assoc, List.cons_append, List.nil_append]

theorem selectAll_columns {names : List String} (some : names ≠ []) (fresh : q.selects = []) :
    Selection.selectAll q (names.map fun name => .plain (q.table.column name)) =
      { q with selects := names.map fun name => (q.table.column name).term } := by
  have all (own : Table) (names : List String) (q : Query) :
      (names.map fun name => .plain (own.column name)).foldl Selection.Item.select q =
        { q with selects := q.selects ++ names.map fun name => (own.column name).term } := by
    induction names generalizing q with
    | nil => simp only [List.map_nil, List.append_nil, List.foldl_nil]
    | cons name names ih =>
      rw [List.map_cons, List.foldl_cons, ih, List.map_cons]
      simp only [Selection.Item.select, Query.select, List.append_assoc, List.singleton_append]
  unfold Selection.selectAll
  rw [all, fresh, List.nil_append]
  exact if_pos (by simpa [Query.hasSelects] using some)

variable {s : Settings} {m : Memo}

theorem items_of_columnNames (child : ChildQuery) (d : Dialect) (v : Viewer) (parents : List String)
    (sound : m.Sound) (fields : ∀ f ∈ child.fields, IsColumnName f.toList) :
    (Request.selectItems c d (v.trustedUnder child.parentEntity) (.ofEntity child.entity)
      (child.request parents).fields m).1 =
        .ok ((child.fields ++ ["parent", "parentfield"]).map fun f =>
          .plain ((Table.ofEntity child.entity).column f)) := by
  have names : ∀ f ∈ child.fields ++ ["parent", "parentfield"], IsColumnName f.toList := by
    refine List.forall_mem_append.2 ⟨fields, fun f mem => ?_⟩
    rcases List.mem_pair.1 mem with rfl | rfl <;> decide
  have parsed : (Selection.parse c (.ofEntity child.entity) d
      (.entries ((child.fields ++ ["parent", "parentfield"]).map .text)) m).1 = _ :=
    Selection.parseEntries_of_columnNames sound names
  -- The viewer is trusted, so that nothing of this is left out.
  exact congrArg (Except.bind · _) parsed

theorem build_of_columnNames (child : ChildQuery) (v : Viewer) (parents : List String)
    (sound : m.Sound) (named : Clause.isEntityName child.entity.toList)
    (fields : ∀ f ∈ child.fields, IsColumnName f.toList) :
    (child.build c s v parents m).1 = .ok (child.rows s.dialect parents) := by
  have gate : Request.passGate c (v.trustedUnder child.parentEntity) (child.request parents) =
      .ok (.ofEntity child.entity) :=
    bind_eq_ok.2 ⟨.ofEntity child.entity, if_pos named, rfl⟩
  have selected : (Request.selectFields c s.dialect (v.trustedUnder child.parentEntity)
      (child.request parents) (.ofEntity child.entity) m).1 =
        .ok { child.rows s.dialect parents with wheres := [], orderBys := [] } := by
    have items := items_of_columnNames (c := c) child s.dialect v parents sound fields
    refine (congrArg (Except.map _) items).trans (congrArg Except.ok ?_)
    exact selectAll_columns (by simp) rfl
  exact Request.build_of_stages rfl gate selected
    (bind_eq_ok.2 ⟨_, apply_conditions child parents rfl, rfl⟩)

end Sql.ChildQuery

/-! ### Where child queries come from -/

namespace Access

variable {c : Catalog} {user entity fieldname : String}

theorem columnName_of_sees (proper : c.WellNamed) (h : Sees c user entity fieldname) :
    IsColumnName fieldname.toList := by
  obtain ⟨columns, visible, mem⟩ := h
  obtain ⟨e, declared, sublist⟩ := visibleColumns_sublist visible
  have among := sublist.mem mem
  unfold Catalog.Entity.columns at among
  rw [List.mem_append, List.mem_append] at among
  rcases among with (standard | child) | own
  · have named : ∀ name ∈ Catalog.standardColumns, IsColumnName name.toList := by decide
    exact named _ standard
  · have named : ∀ name ∈ Catalog.childColumns, IsColumnName name.toList := by decide
    split at child
    · exact named _ child
    · cases child
  · obtain ⟨f, there, rfl⟩ := List.mem_map.1 own
    exact proper.fields entity e declared f (List.mem_filter.1 there).1

end Access

namespace Selection

variable {c : Catalog} {table : Table} {q : Query} {child : ChildQuery}

def Fetches (c : Catalog) (owner : String) (child : ChildQuery) : Prop :=
  child.parentEntity = owner ∧ ∃ e f, c.entity owner = .ok e ∧ f ∈ e.fields ∧
    f.fieldname = child.fieldname ∧ f.type.isCollection ∧ f.target = some child.entity

theorem fetches_of_childQuery? {owner fieldname : String} {fields : List String}
    (h : childQuery? c owner fieldname fields = .ok (some child)) : Fetches c owner child := by
  unfold childQuery? at h
  obtain ⟨found, declared, h⟩ := bind_eq_ok.1 h
  cases found with
  | none => cases h
  | some f =>
    obtain ⟨e, entity, mem, name⟩ := Catalog.field?_ok declared
    dsimp only at h
    split at h
    · next collection =>
      obtain ⟨target, refers, rfl⟩ := Option.map_eq_some_iff.1 (Except.ok.inj h)
      exact ⟨rfl, e, f, entity, mem, name, collection, refers⟩
    · cases h

theorem Reference.children_join (r : Reference) (q : Query) :
    (r.join q).children = q.children := by
  unfold Reference.join Query.ensureJoin
  split <;> rfl

theorem child_of_select (i : Item) (q : Query) (mem : child ∈ (i.select q).children) :
    child ∈ q.children ∨ i = .child child := by
  cases i with
  | child other =>
    rcases List.mem_append.1 mem with old | new
    · exact .inl old
    · rw [List.mem_singleton.1 new]
      exact .inr rfl
  | reference r =>
    have mem : child ∈ (r.join q).children := mem
    rw [r.children_join] at mem
    exact .inl mem
  | plain _ | star _ | position _ | call _ | term _ => exact .inl mem

theorem child_of_selectAll {items : List Item} (mem : child ∈ (selectAll q items).children) :
    child ∈ q.children ∨ .child child ∈ items := by
  have all : child ∈ (items.foldl Item.select q).children →
      child ∈ q.children ∨ .child child ∈ items := by
    clear mem
    induction items generalizing q with
    | nil => exact .inl
    | cons i items ih =>
      intro mem
      rcases ih mem with before | later
      · refine (child_of_select i q before).imp_right ?_
        rintro rfl
        exact List.mem_cons_self
      · exact .inr (List.mem_cons_of_mem i later)
  unfold selectAll at mem
  dsimp only at mem
  split at mem <;> exact all mem

end Selection

namespace Access

open Selection

variable {c : Catalog} {table : Table} {v : Viewer} {child : ChildQuery}

theorem child_of_narrow {s : Selection} {d : Dialect} {m m' : Memo} {items kept : List Item}
    (parsed : s.parse c table d m = (.ok items, m')) (narrowed : narrow c table v items = .ok kept)
    (mem : .child child ∈ kept) : Fetches c table.entity child ∧ child.fields ≠ [] ∧
      ∀ f ∈ child.fields, Sees c v.user child.entity f := by
  have origin := denotes_of_parse parsed
  have readable : ∀ i ∈ items, Readable table i := by
    intro i there
    obtain ⟨_, _, denotes⟩ := origin i there
    exact readable_of_denotes denotes
  obtain ⟨_, _, visible, each, eq⟩ := narrow_eq_ok.1 narrowed
  have shown := shows_of_forall₂ readable (remains_of_forall₂ visible readable each)
  rw [← eq] at shown
  refine ⟨?_, (shown _ mem).1⟩
  have fetches {source : ChildQuery} (there : .child source ∈ items) :
      Fetches c table.entity source := by
    obtain ⟨_, _, denotes⟩ := origin _ there
    cases denotes with
    | child found => exact fetches_of_childQuery? found
  rcases narrow_ok narrowed _ mem with there | ⟨_, _, _, eq⟩ | ⟨source, _, there, eq⟩
  · exact fetches there
  · cases eq
  · cases eq
    exact show Fetches c table.entity source from fetches there

end Access

namespace Request

open Selection

variable {c : Catalog} {s : Settings} {v : Viewer} {r : Request} {m m' : Memo} {q q' : Query}
  {child : ChildQuery}

theorem Step.children (h : Step c r q q') : q'.children = q.children := by
  cases h with
  | related read => exact Reference.children_join _ _
  | flags =>
    unfold withFlags
    split_ifs <;> rfl
  | child _ _ | condition _ _ _ | ready _ _ | order _ _ _ | group _ _ | limit _ | offset _ => rfl

theorem child_of_build (h : r.build c s v m = (.ok q, m')) (mem : child ∈ q.children) :
    ∃ items, selectItems c s.dialect v q.table r.fields m = (.ok items, m') ∧
      .child child ∈ items := by
  obtain ⟨table, picked, asked, _, selected, arranged, confined⟩ := build_ok h
  have frame := invariant_of_steps (P := fun q' => q'.table = _ ∧ q'.children = _)
    (steps_of_arrange arranged)
    (fun a b step kept => ⟨step.frame.1.trans kept.1, step.children.trans kept.2⟩) ⟨rfl, rfl⟩
  obtain ⟨_, rfl⟩ := confine_ok confined
  have home : asked.table = table := frame.1.trans (table_of_selectFields selected)
  have mem : child ∈ picked.children := frame.2 ▸ mem
  rcases selectFields_ok selected with ⟨items, found, rfl⟩ | rfl
  · refine ⟨items, ?_, (child_of_selectAll mem).resolve_left List.not_mem_nil⟩
    rw [← home] at found
    exact found
  · cases mem

/-- Every child query that comes with the query for a confined viewer can be built, by whichever
reader and whatever the parents are called: it has its fields in their order and then the two
columns that tell the parent, it joins nothing and is confined to the rows of the parents, in their
order. Its fields are some of the permitted ones of the child entity. -/
theorem children_of_build (proper : c.WellNamed) (confines : v.confinesColumns)
    (h : r.build c s v m = (.ok q, m')) : ∀ child ∈ q.children,
      Fetches c q.table.entity child ∧ child.fields ≠ [] ∧
      (∃ columns, c.permittedFields child.entity v.user (c.columnCapability child.entity v.user)
        true = .ok columns ∧ ∀ f ∈ child.fields, f ∈ columns) ∧
      ∀ (reader : Viewer) (parents : List String) (memo : Memo), memo.Sound →
        (child.build c s reader parents memo).1 = .ok (child.rows s.dialect parents) := by
  intro child mem
  obtain ⟨kept, selected, there⟩ := child_of_build h mem
  obtain ⟨items, parsed, narrowed⟩ := selectItems_ok selected
  rw [if_pos confines] at narrowed
  obtain ⟨fetches, some, seen⟩ := Access.child_of_narrow parsed narrowed there
  obtain ⟨_, e, f, declared, field, _, collection, target⟩ := id fetches
  refine ⟨fetches, some, ?_, fun reader parents memo sound => ?_⟩
  · obtain ⟨f, mem⟩ := List.exists_mem_of_ne_nil _ some
    obtain ⟨columns, visible, _⟩ := seen f mem
    exact ⟨columns, visible, fun f mem => Access.mem_of_sees visible (seen f mem)⟩
  · exact child.build_of_columnNames reader parents sound
      (proper.targets _ e declared f field collection _ target)
      fun f mem => Access.columnName_of_sees proper (seen f mem)

def tasksWithItems : Request :=
  { Request.all (.entity "Task") with fields := some Access.taskColumns }

/-- One of the two child queries is left. It is built behind the query that it came with, for
parents with any names and for none. -/
theorem children_of_build_tasksWithItems : ∃ q m' child,
    tasksWithItems.build Access.columnReader .standard (.ofUser "jane") (.empty 8) = (.ok q, m') ∧
    q.children = [child] ∧ child.fields = ["qty"] ∧
    ∀ parents ∈ [["it's", "*"], []],
      (child.build Access.columnReader .standard (.ofUser "jane") parents m').1 =
        .ok (child.rows .mariadb parents) := by
  have proper : Access.columnReader.WellNamed :=
    Catalog.wellNamed_of_entities (by decide)
  obtain ⟨q, m', child, built, children, fields⟩ : ∃ q m' child,
      tasksWithItems.build Access.columnReader .standard (.ofUser "jane") (.empty 8) =
        (.ok q, m') ∧ q.children = [child] ∧ child.fields = ["qty"] := ⟨_, _, _, rfl, rfl, rfl⟩
  have sound : m'.Sound := by
    have kept := (alike_build (c := Access.columnReader) (v := .ofUser "jane")
      (Memo.sound_empty 8) (Memo.sound_empty 8) .standard tasksWithItems).left
    rwa [built] at kept
  obtain ⟨_, _, _, builds⟩ := children_of_build proper rfl built child
    (by rw [children]; exact List.mem_singleton_self child)
  exact ⟨q, m', child, built, children, fields, fun parents _ => builds _ parents m' sound⟩

end Request

end ScopedQuery
