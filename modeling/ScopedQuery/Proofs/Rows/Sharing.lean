import ScopedQuery.Proofs.Rows.Rule

set_option autoImplicit false

/-!
One more shared record. It is added to the names that the rule for a viewer lets through, so that
every row which was visible stays visible. The one exception is a viewer to whom shared records
count and who had no condition to meet: the names are a condition then, and the first of them hides
everything else.
-/

namespace ScopedQuery

open Sql Outcome

namespace Access

/-- Whether nothing confines a viewer, but a first shared record would. -/
def OpenUntilShared (c : Catalog) (table : Table) (v : Viewer) (strict : Bool) : Prop :=
  rowRule c table v strict = .ok ⟨[], []⟩ ∧ countsShared c table.entity v

variable {c : Catalog} {table : Table} {v : Viewer} {strict : Bool} {rule rule' : RowRule}
  {name : String}

theorem sameAccess_share (entity user name : String) :
    c.SameAccess (c.share entity user name).users := by
  unfold Catalog.share
  exact Catalog.sameAccess_alterUser fun _ => rfl

theorem rowRule_share (h : rowRule c table v strict = .ok rule)
    (h' : rowRule (c.share table.entity v.user name) table v strict = .ok rule') :
    rule'.conditions = rule.conditions ∧
      rule'.shared = if countsShared c table.entity v then rule.shared ++ [name] else [] := by
  have same := sameAccess_share (c := c) table.entity v.user name
  have permissions : (c.share table.entity v.user name).userPermissions v.user =
      c.userPermissions v.user := by
    unfold Catalog.share
    exact Catalog.userPermissions_alterUser fun _ => rfl
  have conditions : rowConditions (c.share table.entity v.user name) table v strict =
      rowConditions c table v strict := rowConditions_withUsers same permissions
  have counts : countsShared (c.share table.entity v.user name) table.entity v =
      countsShared c table.entity v := countsShared_withUsers same _ permissions
  rw [rowRule_eq] at h h'
  rw [conditions, counts, Catalog.sharedWith_share] at h'
  obtain ⟨before, made, rfl⟩ := map_eq_ok.1 h
  obtain ⟨after, again, rfl⟩ := map_eq_ok.1 h'
  cases made.symm.trans again
  refine ⟨rfl, ?_⟩
  dsimp only
  split <;> rfl

theorem shared_eq_nil (h : rowRule c table v strict = .ok rule)
    (counts : ¬ countsShared c table.entity v) : rule.shared = [] := by
  rw [rowRule_eq] at h
  obtain ⟨conditions, _, rfl⟩ := map_eq_ok.1 h
  exact if_neg counts

theorem admits_share {row : Row} (h : rowRule c table v strict = .ok rule)
    (h' : rowRule (c.share table.entity v.user name) table v strict = .ok rule')
    (counts : countsShared c table.entity v) (confined : ¬ OpenUntilShared c table v strict) :
    rule'.Admits table row ↔ rule.Admits table row ∨ row.text? table "name" = some name := by
  obtain ⟨conditions, shared⟩ := rowRule_share h h'
  rw [if_pos counts] at shared
  -- Without conditions some record was shared already, or else the viewer had not been confined.
  have bare : rule.conditions = [] → rule.shared ≠ [] := by
    intro none alone
    obtain ⟨_, _⟩ := rule
    cases none
    cases alone
    exact confined ⟨h, counts⟩
  unfold RowRule.Admits
  rw [conditions, shared]
  by_cases none : rule.conditions = []
  · simp [none, bare none, Row.Holds, or_and_right, exists_or]
  · simp [none, Row.Holds, or_and_right, exists_or, or_right_comm]

theorem admits_uncounted_share {row : Row} (h : rowRule c table v strict = .ok rule)
    (h' : rowRule (c.share table.entity v.user name) table v strict = .ok rule')
    (counts : ¬ countsShared c table.entity v) :
    rule'.Admits table row ↔ rule.Admits table row := by
  obtain ⟨conditions, shared⟩ := rowRule_share h h'
  rw [if_neg counts] at shared
  unfold RowRule.Admits
  rw [conditions, shared, shared_eq_nil h counts]

theorem admits_first_share {row : Row} (opened : OpenUntilShared c table v strict)
    (h' : rowRule (c.share table.entity v.user name) table v strict = .ok rule') :
    rule'.Admits table row ↔ row.text? table "name" = some name := by
  obtain ⟨conditions, shared⟩ := rowRule_share opened.1 h'
  rw [if_pos opened.2] at shared
  unfold RowRule.Admits
  rw [conditions, shared]
  simp [Row.Holds]

end Access

namespace Request

variable {c : Catalog} {s : Settings} {v : Viewer} {r : Request} {table : Table} {name : String}
  {m m₁ m₂ : Memo} {q q' : Query}

/-- A record that is shared hides no row and shows no other one, unless nothing confined the viewer
before. In that case the shared record is all that is left. -/
theorem rows_of_share (enforced : v.enforced) (resolved : r.target.resolve = .ok table)
    (h : r.build c s v m = (.ok q, m₁))
    (h' : r.build (c.share table.entity v.user name) s v m = (.ok q', m₂)) :
    (¬ Access.OpenUntilShared c table v s.strictUserPermissions → ∀ row : Row,
      (row.PassesAll q.wheres → row.PassesAll q'.wheres) ∧
      (row.PassesAll q'.wheres → row.PassesAll q.wheres ∨ row.text? table "name" = some name)) ∧
    (Access.OpenUntilShared c table v s.strictUserPermissions → ∀ row : Row,
      row.PassesAll q'.wheres ↔ row.PassesAll q.wheres ∧ row.text? table "name" = some name) := by
  have same := Access.sameAccess_share (c := c) table.entity v.user name
  obtain ⟨picked, asked, rule, selected, arranged, ruled, wheres⟩ :=
    wheres_of_build enforced resolved h
  obtain ⟨picked', asked', rule', selected', arranged', ruled', wheres'⟩ :=
    wheres_of_build enforced resolved h'
  -- Both builds ask for the same up to the rule: sharing changes nothing that is read there.
  have selects : selectFields (c.share table.entity v.user name) s.dialect v r table m =
      selectFields c s.dialect v r table m := selectFields_withUsers same s.dialect
  rw [selects, selected] at selected'
  cases selected'
  have arranges : arrange (c.share table.entity v.user name) r picked = arrange c r picked :=
    arrange_withUsers r picked
  rw [arranges, arranged] at arranged'
  cases arranged'
  simp only [wheres, wheres', Row.passesAll_append, Access.passesAll_criterion?]
  constructor
  · intro confined row
    by_cases counts : Access.countsShared c table.entity v
    · rw [Access.admits_share ruled ruled' counts confined]
      tauto
    · rw [Access.admits_uncounted_share ruled ruled' counts]
      exact ⟨id, .inl⟩
  · intro opened row
    have admitted : rule.Admits table row := by
      cases ruled.symm.trans opened.1
      exact .inr ⟨by simp [Row.PassesAll], fun _ => rfl⟩
    rw [Access.admits_first_share opened ruled']
    simp [admitted]

def projectReader (fields : List Catalog.Field) : Catalog :=
  ((Catalog.empty.withEntity "Task" ⟨false, fields, []⟩).grant "jane" "Task"
    ⟨[.read], [], none, none⟩).withUserPermission "jane" "Project" ⟨"P-1", none⟩

def rowHolding (column text : String) : Row :=
  ⟨fun _ other => if other = column then some text else none, fun _ => none⟩

theorem rows_of_share_project :
    let c := projectReader [.link "project" "Project"]
    ∃ q q' m₁ m₂, (all (.entity "Task")).build c .standard (.ofUser "jane") (.empty 1) =
        (.ok q, m₁) ∧
      (all (.entity "Task")).build (c.share "Task" "jane" "T-9") .standard (.ofUser "jane")
        (.empty 1) = (.ok q', m₂) ∧
      (rowHolding "project" "P-1").PassesAll q.wheres ∧
      (rowHolding "project" "P-1").PassesAll q'.wheres := by
  have confined : ¬ Access.OpenUntilShared (projectReader [.link "project" "Project"])
      (.ofEntity "Task") (.ofUser "jane") false := by
    intro opened
    cases opened.1
  have passed : (rowHolding "project" "P-1").PassesAll
      [.disj [((Table.ofEntity "Task").column "project").isNull,
        ((Table.ofEntity "Task").column "project").oneOf ["P-1"]]] := by
    rw [Row.passesAll_singleton]
    rfl
  refine ⟨_, _, _, _, rfl, rfl, passed, ?_⟩
  exact (rows_of_share (c := projectReader [.link "project" "Project"]) (s := .standard)
    (v := .ofUser "jane") (r := all (.entity "Task")) (m := .empty 1) rfl rfl rfl
    rfl).1 confined _ |>.1 passed

/-- Where tasks have no project, the reader sees all of them until one is shared. The others are
hidden then. -/
theorem row_hidden_by_share :
    ∃ q q' m₁ m₂, (all (.entity "Task")).build (projectReader []) .standard (.ofUser "jane")
        (.empty 1) = (.ok q, m₁) ∧
      (all (.entity "Task")).build ((projectReader []).share "Task" "jane" "T-1") .standard
        (.ofUser "jane") (.empty 1) = (.ok q', m₂) ∧
      (rowHolding "name" "T-2").PassesAll q.wheres ∧
      ¬ (rowHolding "name" "T-2").PassesAll q'.wheres := by
  refine ⟨_, _, _, _, rfl, rfl, ?_, ?_⟩
  · intro criterion none
    cases none
  · intro passed
    have named := passed _ List.mem_cons_self
    rw [Row.passes_oneOf] at named
    obtain ⟨s, mem, held⟩ := named
    cases List.mem_singleton.1 mem
    exact absurd held (by decide)

end Request

end ScopedQuery
