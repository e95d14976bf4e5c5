import ScopedQuery.Proofs.Rows.Ownership

set_option autoImplicit false

namespace ScopedQuery

open Sql Outcome Catalog

namespace Access

/-- Whether a field names a record: the record that it belongs to, or one of another entity. -/
def NamesRecord (e : Entity) (entity : String) (f : Field) : Prop :=
  f = .link "name" entity ∨ f ∈ e.fields ∧ f.type = .link

/-- Whether a record is one of those that a field is confined to. -/
def Confines (c : Catalog) (entity : String) (v : Viewer) (f : Field) (doc : String) : Prop :=
  f.ignoresUserPermissions = false ∧ ∃ target permitted, f.target = some target ∧
    (c.userPermissions v.user).find? target = some permitted ∧ ∃ p ∈ permitted, p.doc = doc ∧
      (p.applicableFor = none ∨ p.applicableFor =
        some (if f.fieldname = "name" then v.referenceEntity.getD entity else entity))

/-- Whether a row names permitted records only. A field without a record is good enough unless the
rule is strict. -/
def WithinRecords (c : Catalog) (e : Entity) (table : Table) (v : Viewer) (strict : Bool)
    (row : Row) : Prop :=
  ∀ f, NamesRecord e table.entity f → (∃ doc, Confines c table.entity v f doc) →
    (∃ doc, Confines c table.entity v f doc ∧ row.text? table f.fieldname = some doc) ∨
      strict = false ∧ row.text? table f.fieldname = none

def Provides (c : Catalog) (entity user sql : String) : Prop :=
  Text.isBlankText sql.toList = false ∧ ((∃ hook ∈ c.hooksOf entity, hook user entity = some sql) ∨
    ∃ script, c.script? entity = some script ∧ script user = some sql)

variable {c : Catalog} {e : Entity} {table : Table} {v : Viewer} {strict : Bool} {row : Row}
  {a : Catalog.Access} {rule : RowRule}

section Provided

variable {entity user : String}

theorem mem_providedConditions {criterion : Criterion} :
    criterion ∈ providedConditions c entity user ↔
      ∃ sql, Provides c entity user sql ∧ criterion = .raw sql := by
  unfold providedConditions Provides
  simp only [List.mem_map, List.mem_filter, List.mem_append, List.mem_filterMap,
    Option.mem_toList, Option.bind_eq_some_iff, Bool.not_eq_true']
  constructor
  · rintro ⟨sql, ⟨provided, shown⟩, rfl⟩
    exact ⟨sql, ⟨shown, provided⟩, rfl⟩
  · rintro ⟨sql, ⟨shown, provided⟩, rfl⟩
    exact ⟨sql, ⟨provided, shown⟩, rfl⟩

theorem passesAll_providedConditions : row.PassesAll (providedConditions c entity user) ↔
    ∀ sql, Provides c entity user sql → row.Passes (.raw sql) := by
  constructor
  · intro passed sql provided
    exact passed _ (mem_providedConditions.2 ⟨sql, provided, rfl⟩)
  · intro each criterion mem
    obtain ⟨sql, provided, rfl⟩ := mem_providedConditions.1 mem
    exact each sql provided

end Provided

section Field

variable {entity : String} {f : Field}

/-- The records that a field is confined to; it is not confined if there is none. -/
def fieldDocs (c : Catalog) (entity : String) (v : Viewer) (f : Field) : List String :=
  match f.ignoresUserPermissions, f.target with
  | false, some target =>
    (((c.userPermissions v.user).find? target).getD []).filter (concerns entity f.fieldname v)
      |>.map UserPermission.doc
  | _, _ => []

theorem concerns_iff {fieldname : String} {p : UserPermission} :
    concerns entity fieldname v p ↔ p.applicableFor = none ∨ p.applicableFor =
      some (if fieldname = "name" then v.referenceEntity.getD entity else entity) := by
  unfold concerns
  cases p.applicableFor with
  | none => simp
  | some target => cases v.referenceEntity <;> by_cases name : fieldname = "name" <;> simp [name]

theorem mem_fieldDocs {doc : String} : doc ∈ fieldDocs c entity v f ↔ Confines c entity v f doc := by
  unfold fieldDocs Confines
  cases f.ignoresUserPermissions with
  | true => simp
  | false =>
    cases f.target with
    | none => simp
    | some target =>
      cases found : (c.userPermissions v.user).find? target with
      | none => simp [found]
      | some permitted => simp [found, concerns_iff, and_left_comm, and_comm]

theorem fieldConfinement?_eq :
    fieldConfinement? table v strict (c.userPermissions v.user) f =
      match fieldDocs c table.entity v f with
      | [] => none
      | docs => some (confinement strict (table.column f.fieldname) docs) := by
  unfold fieldConfinement? fieldDocs
  cases f.ignoresUserPermissions with
  | true => rfl
  | false =>
    cases f.target with
    | none => rfl
    | some target =>
      cases found : (c.userPermissions v.user).find? target with
      | none => simp [found]
      | some permitted =>
        simp only [Bool.false_eq_true, if_false, Option.bind_eq_bind, Option.bind_some, found,
          Option.getD_some]
        cases permitted.filter (concerns table.entity f.fieldname v) <;> rfl

theorem passes_confinement {column : Column} {docs : List String} :
    row.Passes (confinement strict column docs) ↔ row.Holds column.table column.name docs ∨
      strict = false ∧ row.text? column.table column.name = none := by
  unfold confinement
  cases strict with
  | true => simp
  | false => simp [or_comm]

theorem passes_fieldConfinement :
    (∀ criterion ∈ fieldConfinement? table v strict (c.userPermissions v.user) f,
      row.Passes criterion) ↔ ((∃ doc, Confines c table.entity v f doc) →
        (∃ doc, Confines c table.entity v f doc ∧ row.text? table f.fieldname = some doc) ∨
          strict = false ∧ row.text? table f.fieldname = none) := by
  simp only [← mem_fieldDocs]
  rw [fieldConfinement?_eq]
  cases fieldDocs c table.entity v f with
  | nil => simp
  | cons doc docs =>
    have confined : ∃ d, d ∈ doc :: docs := ⟨doc, List.mem_cons_self⟩
    have only (t : Criterion) : (∀ criterion ∈ some t, row.Passes criterion) ↔ row.Passes t := by
      simp
    rw [only, passes_confinement]
    exact ⟨fun passed _ => passed, fun passed => passed confined⟩

theorem isSome_fieldConfinement (strict : Bool) :
    (fieldConfinement? table v strict (c.userPermissions v.user) f).isSome ↔
      ∃ doc, Confines c table.entity v f doc := by
  simp only [← mem_fieldDocs]
  rw [fieldConfinement?_eq]
  cases fieldDocs c table.entity v f with
  | nil => simp
  | cons doc docs => simp

end Field

theorem linkFields_eq (c : Catalog) (entity : String) : c.linkFields entity =
    (c.entity entity).map fun e => e.fields.filter fun f => f.type == .link := by
  unfold Catalog.linkFields
  cases c.entity entity <;> rfl

def recordFields (e : Entity) (entity : String) : List Field :=
  .link "name" entity :: e.fields.filter fun f => f.type == .link

theorem mem_recordFields {entity : String} {f : Field} :
    f ∈ recordFields e entity ↔ NamesRecord e entity f := by
  unfold recordFields NamesRecord
  simp

def recordConditions (c : Catalog) (e : Entity) (table : Table) (v : Viewer) (strict : Bool) :
    List Criterion :=
  (recordFields e table.entity).filterMap
    (fieldConfinement? table v strict (c.userPermissions v.user))

theorem userConditions_eq (confined : c.userPermissions v.user ≠ []) :
    userConditions c table v strict =
      (c.entity table.entity).map fun e => recordConditions c e table v strict := by
  have listed : (c.userPermissions v.user).isEmpty = false := by simpa using confined
  unfold userConditions
  rw [linkFields_eq]
  simp only [listed]
  cases c.entity table.entity <;> rfl

theorem passesAll_recordConditions : row.PassesAll (recordConditions c e table v strict) ↔
    WithinRecords c e table v strict row := by
  unfold Row.PassesAll recordConditions WithinRecords
  simp only [← passes_fieldConfinement, ← mem_recordFields, List.mem_filterMap, Option.mem_def]
  constructor
  · intro each f mem criterion found
    exact each criterion ⟨f, mem, found⟩
  · rintro each criterion ⟨f, mem, found⟩
    exact each f mem criterion found

theorem recordConditions_ne_nil (strict : Bool) : recordConditions c e table v strict ≠ [] ↔
    ∃ f doc, NamesRecord e table.entity f ∧ Confines c table.entity v f doc := by
  unfold recordConditions
  rw [Ne, List.filterMap_eq_nil_iff]
  simp only [← mem_recordFields, exists_and_left, ← isSome_fieldConfinement strict,
    Option.isSome_iff_ne_none]
  push Not
  rfl

theorem providedConditions_ne_nil {entity user : String} :
    providedConditions c entity user ≠ [] ↔ ∃ sql, Provides c entity user sql := by
  constructor
  · intro conditional
    obtain ⟨criterion, mem⟩ := List.exists_mem_of_ne_nil _ conditional
    obtain ⟨sql, provides, _⟩ := mem_providedConditions.1 mem
    exact ⟨sql, provides⟩
  · rintro ⟨sql, provides⟩
    exact List.ne_nil_of_mem (mem_providedConditions.2 ⟨sql, provides, rfl⟩)

theorem confinedConditions_ne_nil (strict : Bool) (h : (∃ f doc, NamesRecord e table.entity f ∧
      Confines c table.entity v f doc) ∨ ∃ sql, Provides c table.entity v.user sql) :
    recordConditions c e table v strict ++ providedConditions c table.entity v.user ≠ [] := by
  rw [← recordConditions_ne_nil strict, ← providedConditions_ne_nil] at h
  rw [Ne, List.append_eq_nil_iff, not_and_or]
  exact h

theorem admits_confined {shared : List String}
    (conditional : recordConditions c e table v strict ++
      providedConditions c table.entity v.user ≠ []) :
    RowRule.Admits ⟨recordConditions c e table v strict ++
        providedConditions c table.entity v.user, shared⟩ table row ↔
      (WithinRecords c e table v strict row ∧
        ∀ sql, Provides c table.entity v.user sql → row.Passes (.raw sql)) ∨
      row.Holds table "name" shared := by
  unfold RowRule.Admits
  rw [Row.passesAll_append, passesAll_recordConditions, passesAll_providedConditions, or_comm]
  simp [conditional]

theorem isConfined_of_ne_nil (confined : c.userPermissions v.user ≠ []) : isConfined c v := by
  unfold isConfined
  simpa using confined

theorem rowRule_confined (strict : Bool)
    (owner : ¬ requiresOwner (c.rolePermissions table.entity v.user))
    (reads : (c.rolePermissions table.entity v.user).read ||
      (c.rolePermissions table.entity v.user).select)
    (confined : c.userPermissions v.user ≠ []) :
    rowRule c table v strict = (c.entity table.entity).map fun e =>
      ⟨recordConditions c e table v strict ++ providedConditions c table.entity v.user,
        c.sharedWith table.entity v.user⟩ := by
  unfold rowRule
  dsimp only
  rw [if_neg owner, if_pos reads, userConditions_eq confined, isConfined_of_ne_nil confined]
  cases c.entity table.entity <;> rfl

theorem reads_of_allows {entity user : String} (held : c.access? entity user = some a)
    (reads : a.allows .select ∨ a.allows .read) : (c.rolePermissions entity user).read ||
      (c.rolePermissions entity user).select := by
  unfold Catalog.rolePermissions
  rw [held]
  simpa [or_comm] using reads

theorem not_requiresOwner {entity user : String} (held : c.access? entity user = some a)
    (reads : a.allows .select ∨ a.allows .read) (others : ¬ a.OwnedOnly) :
    ¬ requiresOwner (c.rolePermissions entity user) := by
  intro owner
  have inside := ((requiresOwner_iff held).1 owner).2
  exact others ⟨reads, inside⟩

end Access

namespace Request

variable {c : Catalog} {s : Settings} {v : Viewer} {r : Request} {table : Table} {m : Memo}
  {a : Catalog.Access}

theorem build_restrict {rule : Access.RowRule} {criterion : Criterion} (enforced : v.enforced)
    (resolved : r.target.resolve = .ok table)
    (ruled : Access.rowRule c table v s.strictUserPermissions = .ok rule)
    (found : rule.criterion? table = some criterion) :
    r.build c s v m = ((asked c s.dialect v r m).1.map fun q => q.restrict criterion,
      (asked c s.dialect v r m).2) := by
  rw [build_eq]
  obtain ⟨answer, m', answers⟩ : ∃ answer m', asked c s.dialect v r m = (answer, m') :=
    ⟨_, _, rfl⟩
  rw [answers]
  cases answer with
  | error e => rfl
  | ok q =>
    cases table_of_asked resolved answers
    have confined : confine c s.strictUserPermissions v q = .ok (q.restrict criterion) := by
      unfold confine
      rw [if_pos enforced, Access.confineRows_eq, ruled]
      change Except.ok { q with wheres := q.wheres ++ (rule.criterion? q.table).toList } = _
      rw [found]
      rfl
    exact congrArg (Prod.mk · m') confined

/-- A viewer who is confined to records gets the rows of permitted records that meet all provided
conditions, and the shared ones, by one criterion behind all others. -/
theorem rows_of_confined (enforced : v.enforced) (resolved : r.target.resolve = .ok table)
    (held : c.access? table.entity v.user = some a) (reads : a.allows .select ∨ a.allows .read)
    (others : ¬ a.OwnedOnly) (confined : c.userPermissions v.user ≠ []) :
    (∀ q m', r.build c s v m = (.ok q, m') → ∃ e, c.entity table.entity = .ok e) ∧
    ∀ e, c.entity table.entity = .ok e →
      ((∃ f doc, Access.NamesRecord e table.entity f ∧ Access.Confines c table.entity v f doc) ∨
        ∃ sql, Access.Provides c table.entity v.user sql) →
      ∃ criterion, r.build c s v m = ((asked c s.dialect v r m).1.map fun q => q.restrict criterion,
          (asked c s.dialect v r m).2) ∧
        ∀ row : Row, row.Passes criterion ↔
          (Access.WithinRecords c e table v s.strictUserPermissions row ∧
            ∀ sql, Access.Provides c table.entity v.user sql → row.Passes (.raw sql)) ∨
          row.Holds table "name" (c.sharedWith table.entity v.user) := by
  have ruled := Access.rowRule_confined s.strictUserPermissions
    (Access.not_requiresOwner held reads others) (Access.reads_of_allows held reads) confined
  constructor
  · intro q m' built
    obtain ⟨_, _, rule, _, _, made, _⟩ := wheres_of_build enforced resolved built
    obtain ⟨e, declared, _⟩ := map_eq_ok.1 (ruled.symm.trans made)
    exact ⟨e, declared⟩
  · intro e declared conditional
    rw [declared] at ruled
    have conditions := Access.confinedConditions_ne_nil s.strictUserPermissions conditional
    obtain ⟨criterion, found⟩ := Access.criterion?_eq_some
      (r := ⟨_, c.sharedWith table.entity v.user⟩) table conditions
    refine ⟨criterion, build_restrict enforced resolved ruled found, fun row => ?_⟩
    rw [Access.passes_criterion found]
    exact Access.admits_confined conditions

def taskEntity : Entity :=
  ⟨false, [.link "project" "Project", { Field.link "origin" "Project" with
    ignoresUserPermissions := true }], []⟩

def timesheetReader : Catalog :=
  ((((((Catalog.empty.withEntity "Task" taskEntity).grant "jane" "Task"
    ⟨[.read], [.select], none, none⟩).withUserPermission "jane" "Project"
      ⟨"P-1", none⟩).withUserPermission "jane" "Project" ⟨"P-2", some "Invoice"⟩).withUserPermission
        "jane" "Task" ⟨"T-1", some "Timesheet"⟩).share "Task" "jane" "T-9").addHook "*"
          fun _ _ => some "archived = 0"

theorem rows_of_confined_timesheet :
    let v := { Viewer.ofUser "jane" with referenceEntity := some "Timesheet" }
    let r := all (.entity "Task")
    let table := Table.ofEntity "Task"
    timesheetReader.entity "Task" = .ok taskEntity ∧
    ∃ criterion, r.build timesheetReader .standard v (.empty 1) =
        ((asked timesheetReader .mariadb v r (.empty 1)).1.map fun q => q.restrict criterion,
          (asked timesheetReader .mariadb v r (.empty 1)).2) ∧
      ∀ row : Row, row.Passes criterion ↔
        (Access.WithinRecords timesheetReader taskEntity table v false row ∧
          ∀ sql, Access.Provides timesheetReader "Task" "jane" sql → row.Passes (.raw sql)) ∨
        row.Holds table "name" ["T-9"] := by
  intro v r table
  have others : ¬ Catalog.Access.OwnedOnly ⟨[.read], [.select], none, none⟩ := by
    rintro ⟨_, inside⟩
    exact absurd (inside .read (by simp) (by simp)) (by simp)
  have provides : Access.Provides timesheetReader "Task" "jane" "archived = 0" :=
    ⟨by decide, .inl ⟨_, List.mem_cons_self, rfl⟩⟩
  have confined := rows_of_confined (c := timesheetReader) (s := .standard) (v := v) (r := r)
    (m := .empty 1) rfl rfl rfl (.inr rfl) others (by decide)
  exact ⟨rfl, confined.2 taskEntity rfl (.inr ⟨_, provides⟩)⟩

end Request

end ScopedQuery
